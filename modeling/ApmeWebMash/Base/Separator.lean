-- SUMMARY: Lists cut at the first occurrence of a separator, and split at every one.
import Mathlib.Data.List.Infix

/-! # Separators

Cutting a list at the first place where a separator occurs, and splitting it at
every such place. When the beginning of the separator does not occur in a part,
the cut is where the part ends. -/

namespace Separator

variable {α : Type} [DecidableEq α] {sep xs ys zs : List α} {s : α}

/-- What stands before the first occurrence of `sep`, and what stands behind it. -/
def cutFirst (sep : List α) : List α → Option (List α × List α)
  | [] => if sep = [] then some ([], []) else none
  | x :: xs =>
    if sep <+: x :: xs then some ([], (x :: xs).drop sep.length)
    else (cutFirst sep xs).map fun (before, behind) => (x :: before, behind)

/-- `sep` stands between `ys` and `zs`, and does not begin before. -/
def FirstCut (sep xs ys zs : List α) : Prop :=
  xs = ys ++ sep ++ zs ∧ ¬ sep <:+: ys ++ sep.dropLast

/-- The parts between the occurrences of `sep`, which must not be empty. -/
def splitAll (sep xs : List α) : List (List α) :=
  match cutFirst sep xs with
  | none => [xs]
  | some (before, behind) =>
    if behind.length < xs.length then before :: splitAll sep behind else [xs]
termination_by xs.length

theorem cutFirst_of_prefix (h : sep <+: xs) : cutFirst sep xs = some ([], xs.drop sep.length) := by
  cases xs with
  | nil => simp [cutFirst, List.prefix_nil.mp h]
  | cons x xs => rw [cutFirst, if_pos h]

theorem cutFirst_cons_of_not_prefix {x : α} (h : ¬ sep <+: x :: xs) :
    cutFirst sep (x :: xs) =
      (cutFirst sep xs).map fun (before, behind) => (x :: before, behind) := by
  rw [cutFirst, if_neg h]

/-- A part in which the separator cannot begin is passed over. -/
theorem cutFirst_append_of_not_mem (h : s ∉ xs) (ys : List α) :
    cutFirst (s :: sep) (xs ++ ys) =
      (cutFirst (s :: sep) ys).map fun (before, behind) => (xs ++ before, behind) := by
  induction xs with
  | nil => simp
  | cons x xs ih =>
    obtain ⟨hx, hxs⟩ := not_or.mp (mt List.mem_cons.mpr h)
    have hprefix : ¬ (s :: sep) <+: x :: (xs ++ ys) := fun hp => hx (List.cons_prefix_cons.mp hp).1
    rw [List.cons_append, cutFirst_cons_of_not_prefix hprefix, ih hxs, Option.map_map]
    rfl

/-- Behind such a part, the separator is where the list is cut. -/
theorem cutFirst_append (h : s ∉ xs) (ys : List α) :
    cutFirst (s :: sep) (xs ++ (s :: sep) ++ ys) = some (xs, ys) := by
  rw [List.append_assoc, cutFirst_append_of_not_mem h,
    cutFirst_of_prefix (List.prefix_append _ ys), List.drop_left]
  simp

theorem cutFirst_eq_some (h : cutFirst sep xs = some (ys, zs)) : xs = ys ++ sep ++ zs := by
  induction xs generalizing ys with
  | nil =>
    rw [cutFirst] at h
    split at h
    · rename_i hsep
      obtain ⟨rfl, rfl⟩ := Prod.mk.inj (Option.some.inj h)
      simp [hsep]
    · cases h
  | cons x xs ih =>
    rw [cutFirst] at h
    split at h
    · rename_i hprefix
      obtain ⟨rfl, rfl⟩ := Prod.mk.inj (Option.some.inj h)
      rw [List.nil_append]
      exact (List.prefix_iff_eq_append.mp hprefix).symm
    · obtain ⟨⟨before, behind⟩, hcut, heq⟩ := Option.map_eq_some_iff.mp h
      obtain ⟨rfl, rfl⟩ := Prod.mk.inj heq
      rw [ih hcut]
      rfl

omit [DecidableEq α] in
theorem append_dropLast_isPrefix (ys zs : List α) : ys ++ sep.dropLast <+: ys ++ sep ++ zs := by
  rw [List.append_assoc]
  exact (List.prefix_append_right_inj ys).mpr
    ((List.dropLast_prefix sep).trans (List.prefix_append sep zs))

theorem not_isInfix_of_cutFirst (hsep : sep ≠ []) (h : cutFirst sep xs = some (ys, zs)) :
    ¬ sep <:+: ys ++ sep.dropLast := by
  induction xs generalizing ys with
  | nil => simp [cutFirst, hsep] at h
  | cons x xs ih =>
    have hxs := cutFirst_eq_some h
    rw [cutFirst] at h
    split at h
    · obtain ⟨rfl, -⟩ := Prod.mk.inj (Option.some.inj h)
      intro hinfix
      have hlength := hinfix.length_le
      have hpos := List.length_pos_iff.mpr hsep
      rw [List.nil_append, List.length_dropLast] at hlength
      omega
    · rename_i hprefix
      obtain ⟨⟨before, behind⟩, hcut, heq⟩ := Option.map_eq_some_iff.mp h
      obtain ⟨rfl, rfl⟩ := Prod.mk.inj heq
      rw [List.cons_append, List.infix_cons_iff]
      rintro (hhead | hinfix)
      · exact hprefix (hxs ▸ hhead.trans (append_dropLast_isPrefix (x :: before) behind))
      · exact ih hcut hinfix

/-- The list is cut where the separator begins for the first time. -/
theorem cutFirst_eq_some_iff (hsep : sep ≠ []) :
    cutFirst sep xs = some (ys, zs) ↔ FirstCut sep xs ys zs := by
  refine ⟨fun h => ⟨cutFirst_eq_some h, not_isInfix_of_cutFirst hsep h⟩, ?_⟩
  rintro ⟨rfl, hfirst⟩
  induction ys with
  | nil =>
    rw [List.nil_append, cutFirst_of_prefix (List.prefix_append sep zs), List.drop_left]
  | cons y ys ih =>
    rw [List.cons_append, List.infix_cons_iff, not_or] at hfirst
    have hprefix : ¬ sep <+: y :: (ys ++ sep ++ zs) := by
      intro hp
      refine hfirst.1 (List.prefix_of_prefix_length_le hp
        (append_dropLast_isPrefix (y :: ys) zs) ?_)
      simp only [List.length_cons, List.length_append, List.length_dropLast]
      omega
    rw [List.cons_append, List.cons_append, cutFirst_cons_of_not_prefix hprefix, ih hfirst.2]
    rfl

theorem cutFirst_eq_none_iff : cutFirst sep xs = none ↔ ¬ sep <:+: xs := by
  induction xs with
  | nil => simp [cutFirst]
  | cons x xs ih =>
    rw [cutFirst, List.infix_cons_iff, not_or]
    split
    · rename_i hbegins
      simp [hbegins]
    · rename_i hbegins
      simp [hbegins, ih]

omit [DecidableEq α] in
/-- Behind the first part, every part has the separator before it. -/
theorem intercalate_cons (sep part : List α) (parts : List (List α)) :
    List.intercalate sep (part :: parts) = part ++ parts.flatMap fun part => sep ++ part := by
  induction parts generalizing part with
  | nil => rw [List.intercalate_singleton, List.flatMap_nil, List.append_nil]
  | cons next parts ih =>
    rw [List.intercalate_cons_cons, ih, List.flatMap_cons]
    simp only [List.append_assoc]

omit [DecidableEq α] in
/-- When every part has the separator behind it, an empty part is last. -/
theorem flatMap_append_eq_intercalate (sep : List α) (parts : List (List α)) :
    (parts.flatMap fun part => part ++ sep) = List.intercalate sep (parts ++ [[]]) := by
  induction parts with
  | nil => rfl
  | cons part parts ih =>
    have hne : parts ++ [[]] ≠ [] := List.append_ne_nil_of_right_ne_nil _ (List.cons_ne_nil _ _)
    rw [List.cons_append, List.intercalate_cons_of_ne_nil hne, List.flatMap_cons, ih]

omit [DecidableEq α] in
/-- The last part is at the end, behind the others and a separator. -/
theorem intercalate_concat (sep : List α) {parts : List (List α)} (hne : parts ≠ [])
    (last : List α) :
    List.intercalate sep (parts ++ [last]) = List.intercalate sep parts ++ sep ++ last := by
  obtain ⟨part, parts, rfl⟩ := List.exists_cons_of_ne_nil hne
  rw [List.cons_append, intercalate_cons, intercalate_cons, List.flatMap_append,
    List.flatMap_singleton]
  simp only [List.append_assoc]

/-- Parts in which the separator cannot begin are what the list is split into. -/
theorem splitAll_intercalate {parts : List (List α)} (hne : parts ≠ [])
    (h : ∀ part ∈ parts, s ∉ part) :
    splitAll (s :: sep) (List.intercalate (s :: sep) parts) = parts := by
  induction parts with
  | nil => exact absurd rfl hne
  | cons part parts ih =>
    have hpart := h part List.mem_cons_self
    cases parts with
    | nil =>
      have hnone : cutFirst (s :: sep) part = none :=
        cutFirst_eq_none_iff.mpr fun hwithin => hpart (hwithin.subset List.mem_cons_self)
      simp [splitAll, hnone]
    | cons next parts =>
      have hrest := ih (by simp) fun p hp => h p (List.mem_cons_of_mem _ hp)
      have hjoin : List.intercalate (s :: sep) (part :: next :: parts) =
          part ++ (s :: sep) ++ List.intercalate (s :: sep) (next :: parts) := by
        simp [List.intercalate]
      rw [hjoin, splitAll, cutFirst_append hpart]
      simp only [List.length_append, List.length_cons]
      rw [if_pos (by omega), hrest]

/-! ## Searching the parts -/

omit [DecidableEq α] in
/-- What does not contain the separator does not reach over it. -/
theorem isInfix_append_cons_iff {pattern : List α} (h : s ∉ pattern) :
    pattern <:+: xs ++ s :: ys ↔ pattern <:+: xs ∨ pattern <:+: ys := by
  constructor
  · intro hinfix
    rcases List.infix_append_iff.mp hinfix with hleft | hright | ⟨l, r, rfl, hl, hr⟩
    · exact .inl hleft
    · rcases List.infix_cons_iff.mp hright with hprefix | hinfix
      · rcases List.prefix_cons_iff.mp hprefix with rfl | ⟨t, rfl, -⟩
        · exact .inl (List.nil_infix)
        · exact absurd List.mem_cons_self h
      · exact .inr hinfix
    · rcases List.prefix_cons_iff.mp hr with rfl | ⟨t, rfl, -⟩
      · rw [List.append_nil]
        exact .inl hl.isInfix
      · exact absurd (List.mem_append_right _ List.mem_cons_self) h
  · rintro (hleft | hright)
    · exact hleft.trans (List.prefix_append _ _).isInfix
    · exact hright.trans ((List.suffix_cons s ys).trans (List.suffix_append xs _)).isInfix

omit [DecidableEq α] in
/-- A pattern is found in parts that are joined where it is found in a part. -/
theorem isInfix_map_intercalate_iff {pattern : List α} {f : α → α} (hf : f s = s)
    (h : s ∉ pattern) {parts : List (List α)} (hne : parts ≠ []) :
    pattern <:+: ([s].intercalate parts).map f ↔ ∃ part ∈ parts, pattern <:+: part.map f := by
  induction parts with
  | nil => exact absurd rfl hne
  | cons part parts ih =>
    cases parts with
    | nil => simp
    | cons next parts =>
      rw [List.intercalate_cons_cons, List.map_append, List.map_append, List.append_assoc,
        List.map_singleton, hf, List.singleton_append, isInfix_append_cons_iff h,
        ih (List.cons_ne_nil _ _)]
      simp only [List.mem_cons, exists_eq_or_imp]

/-- Parts with the separator behind each of them are split into the parts, and
    nothing at the end. -/
theorem splitAll_flatMap_append {parts : List (List α)} (h : ∀ part ∈ parts, s ∉ part) :
    splitAll (s :: sep) (parts.flatMap fun part => part ++ s :: sep) = parts ++ [[]] := by
  rw [flatMap_append_eq_intercalate]
  refine splitAll_intercalate (List.append_ne_nil_of_right_ne_nil _ (List.cons_ne_nil _ _)) ?_
  intro part hpart
  rcases List.mem_append.mp hpart with hpart | hpart
  · exact h part hpart
  · rw [List.mem_singleton.mp hpart]
    exact List.not_mem_nil

end Separator
