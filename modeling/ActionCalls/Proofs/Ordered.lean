import Mathlib.Data.List.Perm.Subperm
import Std.Data.ExtTreeMap
import Std.Data.ExtTreeSet

/-!
# Tables as ascending lists

A table keyed by strings is published as the list of its values. This module says what such a list
is: its members are the values of the table, and where every value carries its own key, the list is
**strictly ascending by that key**. An ordered list is known by its members alone
(`eq_of_pairwise`), which is how two published lists are proved equal.
-/

namespace ActionCalls.Ordered

/-! ### Ascending lists -/

/-- The order of the keys of a table is the order of strings. -/
theorem compare_eq_lt_iff {a b : String} : compare a b = .lt ↔ a < b :=
  compareOfLessAndEq_eq_lt

variable {α : Type} {key : α → String}

/-- Keys that ascend strictly are pairwise distinct. -/
theorem nodup_map_of_ascending {l : List α} (h : l.Pairwise fun a b => key a < key b) :
    (l.map key).Nodup := by
  rw [List.Nodup, List.pairwise_map]
  refine h.imp ?_
  intro a b hab heq
  rw [heq] at hab
  exact String.lt_irrefl _ hab

/-- Of keys that ascend strictly each occurs once. -/
theorem countP_key_eq_one {l : List α} (h : l.Pairwise fun a b => key a < key b) {k : String}
    (hmem : ∃ a ∈ l, key a = k) : l.countP (fun a => key a = k) = 1 := by
  have hcount : l.countP (fun a => key a = k) = (l.map key).count k := by
    rw [List.count_eq_countP, List.countP_map]
    rfl
  rw [hcount, (nodup_map_of_ascending h).count, if_pos (List.mem_map.mpr hmem)]

/-- Two lists in the order of an asymmetric relation are equal as soon as they have the same
members. -/
theorem eq_of_pairwise {r : α → α → Prop} (hasymm : ∀ a b, r a b → ¬ r b a) {l₁ l₂ : List α}
    (h₁ : l₁.Pairwise r) (h₂ : l₂.Pairwise r) (hmem : ∀ a, a ∈ l₁ ↔ a ∈ l₂) : l₁ = l₂ := by
  -- An asymmetric relation never holds of an element and itself, so neither list repeats one.
  have hnodup : ∀ {l : List α}, l.Pairwise r → l.Nodup := by
    intro l h
    refine h.imp ?_
    intro a b hab heq
    subst heq
    exact hasymm a a hab hab
  refine List.Perm.eq_of_pairwise ?_ h₁ h₂ ?_
  · intro a b _ _ hab hba
    exact absurd hba (hasymm a b hab)
  · exact (List.perm_ext_iff_of_nodup (hnodup h₁) (hnodup h₂)).mpr hmem

/-- Two ordered lists give the same when gone through, if the elements in only one of them give
nothing. -/
theorem flatMap_eq_of_pairwise {β : Type} {r : α → α → Prop} (hasymm : ∀ a b, r a b → ¬ r b a)
    {l₁ l₂ : List α} (h₁ : l₁.Pairwise r) (h₂ : l₂.Pairwise r) {f : α → List β}
    (hmem : ∀ a, f a ≠ [] → (a ∈ l₁ ↔ a ∈ l₂)) : l₁.flatMap f = l₂.flatMap f := by
  have hfilter : ∀ l : List α, l.flatMap f = (l.filter fun a => !(f a).isEmpty).flatMap f := by
    intro l
    rw [List.flatMap_def, ← List.flatten_filter_not_isEmpty, List.filter_map]
    rfl
  rw [hfilter l₁, hfilter l₂]
  refine congrArg (List.flatMap f) (eq_of_pairwise hasymm (h₁.filter _) (h₂.filter _) ?_)
  intro a
  rw [List.mem_filter, List.mem_filter]
  refine and_congr_left ?_
  intro hne
  exact hmem a (by simpa using hne)

/-! ### Sets and their members -/

section Set

variable {cmp : α → α → Ordering} [Std.TransCmp cmp] [Std.LawfulEqCmp cmp] {s : Std.ExtTreeSet α cmp}

theorem nodup_toList : s.toList.Nodup := by
  refine Std.ExtTreeSet.distinct_toList.imp ?_
  intro a b hab heq
  exact hab (Std.LawfulEqCmp.compare_eq_iff_eq.mpr heq)

/-- A set is as large as a list without repeats that has the same members is long. -/
theorem size_eq_length {l : List α} (hl : l.Nodup) (hmem : ∀ a, a ∈ s ↔ a ∈ l) :
    s.size = l.length := by
  rw [← Std.ExtTreeSet.length_toList]
  refine ((List.perm_ext_iff_of_nodup nodup_toList hl).mpr ?_).length_eq
  intro a
  rw [Std.ExtTreeSet.mem_toList, hmem]

theorem toList_subperm {l : List α} (hmem : ∀ a, a ∈ s ↔ a ∈ l) : List.Subperm s.toList l := by
  refine nodup_toList.subperm ?_
  intro a ha
  exact (hmem a).mp (Std.ExtTreeSet.mem_toList.mp ha)

/-- With repeats the list is longer. -/
theorem size_le_length {l : List α} (hmem : ∀ a, a ∈ s ↔ a ∈ l) : s.size ≤ l.length := by
  rw [← Std.ExtTreeSet.length_toList]
  exact (toList_subperm hmem).length_le

theorem size_eq_length_iff {l : List α} (hmem : ∀ a, a ∈ s ↔ a ∈ l) :
    s.size = l.length ↔ l.Nodup := by
  refine ⟨?_, fun hl => size_eq_length hl hmem⟩
  intro hsize
  rw [← Std.ExtTreeSet.length_toList] at hsize
  exact ((toList_subperm hmem).perm_of_length_le (Nat.le_of_eq hsize.symm)).nodup nodup_toList

end Set

/-! ### Tables and their values -/

variable {β : Type} {m : Std.ExtTreeMap String β}

/-- A key is in a table when something is found under it. -/
theorem mem_iff_exists_getElem? {k : String} : k ∈ m ↔ ∃ v, m[k]? = some v :=
  Std.ExtTreeMap.mem_iff_isSome_getElem?.trans Option.isSome_iff_exists

theorem values_eq_map_snd : m.values = m.toList.map Prod.snd := by
  obtain ⟨m⟩ := m
  induction m using Std.ExtDTreeMap.inductionOn with
  | mk t =>
      show t.inner.values = (Std.DTreeMap.Internal.Impl.Const.toList t.inner).map Prod.snd
      rw [Std.DTreeMap.Internal.Impl.values_eq_map_snd,
        Std.DTreeMap.Internal.Impl.Const.toList_eq_toListModel_map, List.map_map]
      rfl

theorem mem_values {v : β} : v ∈ m.values ↔ ∃ k : String, m[k]? = some v := by
  rw [values_eq_map_snd, List.mem_map]
  constructor
  · intro h
    obtain ⟨⟨k, w⟩, hmem, hw⟩ := h
    obtain rfl : w = v := hw
    exact ⟨k, Std.ExtTreeMap.mem_toList_iff_getElem?_eq_some.mp hmem⟩
  · intro h
    obtain ⟨k, hk⟩ := h
    exact ⟨(k, v), Std.ExtTreeMap.mem_toList_iff_getElem?_eq_some.mpr hk, rfl⟩

/-- Where every value carries its own key, a value is listed exactly when it is found under it. -/
theorem mem_values_iff_getElem? {key : β → String}
    (hkey : ∀ (k : String) v, m[k]? = some v → key v = k) {v : β} : v ∈ m.values ↔ m[key v]? = some v := by
  rw [mem_values]
  constructor
  · intro h
    obtain ⟨k, hk⟩ := h
    rw [hkey k v hk]
    exact hk
  · intro h
    exact ⟨key v, h⟩

/-- Where every value carries its own key, searching the values for a key is looking it up. -/
theorem find?_values {key : β → String} (hkey : ∀ (k : String) v, m[k]? = some v → key v = k)
    (k : String) : m.values.find? (fun v => key v = k) = m[k]? := by
  cases hfound : m.values.find? fun v => key v = k with
  | some v =>
      obtain rfl : key v = k := by simpa using List.find?_some hfound
      exact ((mem_values_iff_getElem? hkey).mp (List.mem_of_find?_eq_some hfound)).symm
  | none =>
      cases hvalue : m[k]? with
      | none => rfl
      | some v =>
          have hne := List.find?_eq_none.mp hfound v (mem_values.mpr ⟨k, hvalue⟩)
          exact absurd (hkey k v hvalue) (by simpa using hne)

/-- Tables that show the same under each key list values that show the same. -/
theorem map_values_eq {γ : Type} {m' : Std.ExtTreeMap String β} {f : β → γ}
    (h : ∀ k : String, m[k]?.map f = m'[k]?.map f) : m.values.map f = m'.values.map f := by
  have hmap : (m.map fun _ => f) = m'.map fun _ => f := by
    refine Std.ExtTreeMap.ext_getElem? ?_
    intro k
    rw [Std.ExtTreeMap.getElem?_map, Std.ExtTreeMap.getElem?_map, h]
  have hlist := congrArg (fun m => m.toList.map Prod.snd) hmap
  simp only [Std.ExtTreeMap.toList_map, List.map_map] at hlist
  rw [values_eq_map_snd, values_eq_map_snd, List.map_map, List.map_map]
  exact hlist

/-- Where every value carries its own key, the values are listed in the order of these keys. -/
theorem values_ascending {key : β → String} (hkey : ∀ (k : String) v, m[k]? = some v → key v = k) :
    m.values.Pairwise fun a b => key a < key b := by
  rw [values_eq_map_snd, List.pairwise_map]
  refine Std.ExtTreeMap.ordered_keys_toList.imp_of_mem ?_
  -- Each entry of the table is known to be one, which gives the two keys by `hkey`.
  intro a b ha hb hab
  rw [hkey a.1 a.2 (Std.ExtTreeMap.mem_toList_iff_getElem?_eq_some.mp ha),
    hkey b.1 b.2 (Std.ExtTreeMap.mem_toList_iff_getElem?_eq_some.mp hb)]
  exact compare_eq_lt_iff.mp hab

/-- The values of one kind are known by their entries, in the order of the keys. -/
theorem filter_values_eq {p : β → Bool} {l : List (String × β)}
    (hl : l.Pairwise fun a b => a.1 < b.1)
    (hmem : ∀ k v, (k, v) ∈ l ↔ m[k]? = some v ∧ p v = true) :
    m.values.filter p = l.map Prod.snd := by
  have hordered : m.toList.Pairwise fun a b => a.1 < b.1 :=
    Std.ExtTreeMap.ordered_keys_toList.imp compare_eq_lt_iff.mp
  rw [values_eq_map_snd, List.filter_map]
  refine congrArg (List.map Prod.snd) ?_
  refine eq_of_pairwise (fun a b => String.lt_asymm) (hordered.filter _) hl ?_
  intro entry
  obtain ⟨k, v⟩ := entry
  rw [List.mem_filter, hmem, Std.ExtTreeMap.mem_toList_iff_getElem?_eq_some]
  exact Iff.rfl

end ActionCalls.Ordered
