import ActionCalls.Json.Decode

/-!
# Records decoded from objects

An object decodes to a record when **each of its fields does** (`RecordDecoder.decode_object`). The
decoder looks at the members in the order of their keys, before it looks up the values of the fields
in the order of declaration; where no key is there twice, both see the same values. What the values of
a record's fields make of it (`RecordDecoder.Yields`) is built up field by field, in the order of
declaration, which is how a record decoder is built up itself.
-/

namespace ActionCalls.Json

/-! ### Members and their keys -/

/-- Where no key is there twice, a member is what is found under its key. -/
theorem lookup_eq_some_of_mem {members : List (String × Json)} (hkeys : (members.map Prod.fst).Nodup)
    {key : String} {value : Json} (hmem : (key, value) ∈ members) :
    members.lookup key = some value := by
  obtain ⟨before, behind, rfl⟩ := List.append_of_mem hmem
  refine List.lookup_eq_some_iff.mpr ⟨before, behind, rfl, ?_⟩
  intro other hother
  rw [List.map_append, List.nodup_append] at hkeys
  have hne : other.1 ≠ key := hkeys.2.2 other.1 (List.mem_map_of_mem hother) key List.mem_cons_self
  simpa using hne.symm

/-! ### Lists -/

/-- A list is decoded from the values of its items. -/
theorem Decoder.list_map {α : Type} {decode : Decoder α} {toJson : α → Json} {items : List α}
    (h : ∀ item ∈ items, decode (toJson item) = .ok item) :
    Decoder.list decode (.array (items.map toJson)) = .ok items := by
  show (items.map toJson).mapM decode = .ok items
  induction items with
  | nil => rfl
  | cons item items ih =>
      rw [List.map_cons, List.mapM_cons, h item List.mem_cons_self,
        ih fun other hother => h other (List.mem_cons_of_mem item hother)]
      rfl

theorem Decoder.list_ofStrings (names : List String) :
    Decoder.list Decoder.string (ofStrings names) = .ok names :=
  Decoder.list_map fun _ _ => rfl

/-! ### Records -/

namespace RecordDecoder

variable {α β : Type}

/-- The values under the names of a record's fields make a record: the value of each field passes the
check of the field, and together they build the record. -/
structure Yields (r : RecordDecoder α) (values : String → Option Json) (a : α) : Prop where
  passes : ∀ field ∈ r.fields, ∀ value, values field.1 = some value → field.2 value = .ok ()
  build : r.build values = .ok a

namespace Yields

variable {values : String → Option Json} {r : RecordDecoder (α → β)} {f : α → β} {a : α}

theorem pure (a : α) : (RecordDecoder.pure a).Yields values a where
  passes _ hfield := absurd hfield List.not_mem_nil
  build := rfl

/-- One more field, with a value that decodes. -/
theorem field (h : r.Yields values f) {name : String} {decode : Decoder α}
    {absent : Except DecodeError α} {value : Json} (hvalue : values name = some value)
    (hdecode : decode value = .ok a) : (r.field name decode absent).Yields values (f a) where
  passes := by
    intro other hother found hfound
    rcases List.mem_append.mp hother with hother | hother
    · exact h.passes other hother found hfound
    · obtain rfl := List.mem_singleton.mp hother
      obtain rfl := Option.some.inj (hvalue.symm.trans hfound)
      show (decode value).map (fun _ => ()) = .ok ()
      rw [hdecode]
      rfl
  build := by
    simp only [RecordDecoder.field, h.build, hvalue, hdecode]
    rfl

/-- One more field, which is absent and has a default. -/
theorem absent (h : r.Yields values f) {name : String} {decode : Decoder α}
    (hvalue : values name = none) : (r.field name decode (.ok a)).Yields values (f a) where
  passes := by
    intro other hother found hfound
    rcases List.mem_append.mp hother with hother | hother
    · exact h.passes other hother found hfound
    · obtain rfl := List.mem_singleton.mp hother
      exact absurd (hvalue.symm.trans hfound) (Option.some_ne_none found).symm
  build := by
    simp only [RecordDecoder.field, h.build, hvalue]
    rfl

end Yields

variable {r : RecordDecoder α} {a : α}

theorem check_eq_ok {members : List (String × Json)}
    (h : ∀ member ∈ members, ∀ checkField, r.fields.lookup member.1 = some checkField →
      checkField member.2 = .ok ()) : r.check members = .ok () := by
  induction members with
  | nil => rfl
  | cons member members ih =>
      obtain ⟨key, value⟩ := member
      have hrest := ih fun other hother => h other (List.mem_cons_of_mem _ hother)
      rw [check]
      cases hfield : r.fields.lookup key with
      | none => exact hrest
      | some checkField =>
          simp only [h (key, value) List.mem_cons_self checkField hfield]
          exact hrest

/-- An object is decoded to the record that the values under its keys make. -/
theorem decode_object {members : List (String × Json)} (hkeys : (members.map Prod.fst).Nodup)
    (h : r.Yields (fun name => members.lookup name) a) (record : String) (form : ArrayForm) :
    r.decode record form (.object members) = .ok a := by
  have hcheck : r.check (members.mergeSort fun a b => a.1 ≤ b.1) = .ok () := by
    refine check_eq_ok ?_
    rintro ⟨key, value⟩ hmember checkField hfield
    -- Sorting the members neither adds nor drops one.
    have hvalue := lookup_eq_some_of_mem hkeys (List.mem_mergeSort.mp hmember)
    obtain ⟨before, behind, hfields, -⟩ := List.lookup_eq_some_iff.mp hfield
    have hmem : (key, checkField) ∈ r.fields := by
      rw [hfields]
      exact List.mem_append_right before List.mem_cons_self
    exact h.passes (key, checkField) hmem value hvalue
  rw [decode, hcheck]
  exact h.build

end RecordDecoder

end ActionCalls.Json
