-- SUMMARY: Derived deserialization of structs that deny unknown fields: the documents it takes, and where it finds the fields.
import Mathlib.Data.List.Nodup
import ApmeWebMash.Base.Json

/-! # Derived structs

A struct can be read from an object, which gives each of its fields at most once
under its name, or from an array, which gives all of them in the order of their
declaration. A derived deserializer takes both, also where it denies unknown
fields. -/

namespace Json

/-- What is found under a key is a member. -/
theorem mem_of_lookup {key : Str} {v : Json} {members : List (Str × Json)}
    (h : lookup key members = some v) : (key, v) ∈ members := by
  induction members with
  | nil => cases h
  | cons member members ih =>
    rw [lookup] at h
    split at h
    · rename_i hkey
      rw [← hkey, ← Option.some.inj h]
      exact List.mem_cons_self
    · exact List.mem_cons_of_mem _ (ih h)

/-- Without a repeated key, every member is found under its key. -/
theorem lookup_of_mem {key : Str} {v : Json} {members : List (Str × Json)}
    (hkeys : (members.map Prod.fst).Nodup) (h : (key, v) ∈ members) :
    lookup key members = some v := by
  induction members with
  | nil => cases h
  | cons member members ih =>
    obtain ⟨hnew, hkeys⟩ := List.nodup_cons.mp hkeys
    rw [lookup]
    rcases List.mem_cons.mp h with rfl | h
    · exact if_pos rfl
    · have hne : member.1 ≠ key := by
        rintro rfl
        exact hnew (List.mem_map.mpr ⟨_, h, rfl⟩)
      rw [if_neg hne]
      exact ih hkeys h

end Json

namespace DerivedStruct

section
variable (fields : List Str)

/-- The documents that are taken for the struct: an object without unknown or
    repeated keys, or an array of all fields. -/
def isShape : Json → Bool
  | .object members =>
    (members.map Prod.fst).all (fields.contains ·) && (members.map Prod.fst).Nodup
  | .array items => items.length = fields.length
  | _ => false

/-- The field of a document under a name. -/
def field (doc : Json) (name : Str) : Option Json :=
  match doc with
  | .object members => Json.lookup name members
  | .array items => Json.lookup name (fields.zip items)
  | _ => none

/-- The document has all these fields. -/
def HasFields (doc : Json) (values : List (Str × Json)) : Prop :=
  ∀ value ∈ values, field fields doc value.1 = some value.2

end

variable {fields : List Str} {members values : List (Str × Json)} {items : List Json}

theorem isShape_object (h : isShape fields (.object members)) :
    (∀ member ∈ members, member.1 ∈ fields) ∧ (members.map Prod.fst).Nodup := by
  obtain ⟨hknown, hkeys⟩ := (Bool.and_eq_true _ _).mp h
  refine ⟨fun member hmem => ?_, of_decide_eq_true hkeys⟩
  exact List.contains_iff_mem.mp (List.all_eq_true.mp hknown _ (List.mem_map_of_mem hmem))

/-- An object that has a value for every field has these members and no others. -/
theorem perm_of_hasFields (hshape : isShape fields (.object members))
    (hvalues : values.map Prod.fst = fields) (hfields : fields.Nodup)
    (h : HasFields fields (.object members) values) : members.Perm values := by
  obtain ⟨hknown, hkeys⟩ := isShape_object hshape
  have hmembers : members.Nodup := List.Nodup.of_map _ hkeys
  have hnames : (values.map Prod.fst).Nodup := hvalues.symm ▸ hfields
  have hnodup : values.Nodup := List.Nodup.of_map _ hnames
  refine (List.perm_ext_iff_of_nodup hmembers hnodup).mpr fun member => ?_
  constructor
  · intro hmem
    have hname : member.1 ∈ values.map Prod.fst := hvalues.symm ▸ hknown member hmem
    obtain ⟨value, hvalue, heq⟩ := List.mem_map.mp hname
    have hfound := Json.lookup_of_mem hkeys hmem
    rw [← heq, show Json.lookup value.1 members = some value.2 from h value hvalue] at hfound
    rwa [show member = value from Prod.ext heq.symm (Option.some.inj hfound).symm]
  · exact fun hmem => Json.mem_of_lookup (h member hmem)

/-- The fields of an array, each with its name. -/
theorem zip_map_snd (hvalues : values.map Prod.fst = fields) :
    fields.zip (values.map Prod.snd) = values := by
  rw [← hvalues, ← List.unzip_fst, ← List.unzip_snd, List.zip_unzip]

theorem hasFields_array (hvalues : values.map Prod.fst = fields) (hfields : fields.Nodup) :
    HasFields fields (.array (values.map Prod.snd)) values := by
  intro value hmem
  rw [field, zip_map_snd hvalues]
  exact Json.lookup_of_mem (hvalues.symm ▸ hfields) hmem

/-- An array that has a value for every field is the array of these values. -/
theorem items_of_hasFields (hshape : isShape fields (.array items))
    (hvalues : values.map Prod.fst = fields) (hfields : fields.Nodup)
    (h : HasFields fields (.array items) values) : items = values.map Prod.snd := by
  have hlength : items.length = fields.length := of_decide_eq_true hshape
  have hkeys : (fields.zip items).map Prod.fst = fields :=
    List.map_fst_zip (Nat.le_of_eq hlength.symm)
  have hitems : (fields.zip items).map Prod.snd = items :=
    List.map_snd_zip (Nat.le_of_eq hlength)
  have hsame : ∀ i : Nat, (fields.zip items)[i]? = values[i]? := by
    intro i
    have hkey : ((fields.zip items)[i]?).map Prod.fst = (values[i]?).map Prod.fst := by
      rw [← List.getElem?_map, ← List.getElem?_map, hkeys, hvalues]
    cases hzip : (fields.zip items)[i]? with
    | none =>
      rw [hzip] at hkey
      exact (Option.map_eq_none_iff.mp hkey.symm).symm
    | some pair =>
      rw [hzip] at hkey
      obtain ⟨value, hvalue, heq⟩ := Option.map_eq_some_iff.mp hkey.symm
      have hfound := Json.lookup_of_mem (hkeys.symm ▸ hfields) (List.mem_of_getElem? hzip)
      rw [← heq, show Json.lookup value.1 (fields.zip items) = some value.2 from
        h value (List.mem_of_getElem? hvalue)] at hfound
      rw [hvalue, show pair = value from Prod.ext heq.symm (Option.some.inj hfound).symm]
  rw [← List.ext_getElem? hsame, hitems]

end DerivedStruct
