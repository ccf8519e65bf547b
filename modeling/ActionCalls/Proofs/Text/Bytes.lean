import ActionCalls.Proofs.Text.Utf8
import ActionCalls.Text.Bytes

/-!
# Characters among the bytes of a text

A byte below 0x80 is a character of its own: it is neither the first nor a later byte of any other
character (`mem_utf8EncodeChar_iff`). So where such a byte stands in the bytes of a text, its character
stands in the text, and the bytes before and behind it are those of whole characters. For the same
reason any number of bytes from the front of a text holds such characters as often as some front part
of the text does, although the bytes may end inside of a character (`exists_prefix_take_encode`).

A window at the end of a text that reaches back `n` bytes is the shortest one that has so many. It is
longer by three bytes at most, and a window that reaches back further has it at its end.
-/

namespace ActionCalls

namespace Text

theorem byteLength_eq_zero_iff {s : Text} : s.byteLength = 0 ↔ s = [] := by
  cases s with
  | nil => simp [byteLength]
  | cons c s =>
      have hpos := c.utf8Size_pos
      simp only [byteLength, reduceCtorEq, iff_false]
      omega

/-- Does the offset fall between two characters, or on one of the ends? -/
def IsBoundary (s : Text) (offset : Nat) : Prop :=
  ∃ front rest, s = front ++ rest ∧ front.byteLength = offset

theorem atByte?_eq_some_iff {s rest : Text} {offset : Nat} :
    s.atByte? offset = some rest ↔ ∃ front, s = front ++ rest ∧ front.byteLength = offset := by
  fun_induction atByte? s offset with
  | case1 s => simp [byteLength_eq_zero_iff]
  | case2 n =>
      simp only [reduceCtorEq, List.nil_eq_append_iff, false_iff, not_exists]
      intro front h
      obtain ⟨⟨rfl, -⟩, hlength⟩ := h
      cases hlength
  | case3 c s n hle ih =>
      rw [ih]
      constructor
      · intro h
        obtain ⟨front, rfl, hlength⟩ := h
        exact ⟨c :: front, rfl, by rw [byteLength, hlength, Nat.add_sub_cancel' hle]⟩
      · intro h
        obtain ⟨front, hcut, hlength⟩ := h
        cases front with
        | nil => cases hlength
        | cons first front =>
            obtain ⟨rfl, rfl⟩ := List.cons.inj hcut
            refine ⟨front, rfl, ?_⟩
            rw [byteLength] at hlength
            omega
  | case4 c s n hlt =>
      simp only [reduceCtorEq, false_iff, not_exists]
      intro front h
      obtain ⟨hcut, hlength⟩ := h
      cases front with
      | nil => cases hlength
      | cons first front =>
          obtain ⟨rfl, -⟩ := List.cons.inj hcut
          rw [byteLength] at hlength
          omega

/-- A text cannot be cut in two ways at one offset. -/
theorem append_inj_of_byteLength {a b a' b' : Text} (h : a ++ b = a' ++ b')
    (hlength : a.byteLength = a'.byteLength) : a = a' ∧ b = b' := by
  have hrest : (a ++ b).atByte? a.byteLength = some b := atByte?_eq_some_iff.mpr ⟨a, rfl, rfl⟩
  have hrest' : (a ++ b).atByte? a.byteLength = some b' :=
    atByte?_eq_some_iff.mpr ⟨a', h, hlength.symm⟩
  obtain rfl := Option.some.inj (hrest.symm.trans hrest')
  exact ⟨List.append_cancel_right h, rfl⟩

/-- A text that is cut twice has a part between the two cuts. -/
theorem exists_append_of_byteLength_le {a b a' b' : Text} (h : a ++ b = a' ++ b')
    (hle : a.byteLength ≤ a'.byteLength) : ∃ more, a' = a ++ more ∧ b = more ++ b' := by
  rcases List.append_eq_append_iff.mp h with ⟨more, ha, hb⟩ | ⟨more, rfl, hb⟩
  · exact ⟨more, ha, hb⟩
  · rw [byteLength_append] at hle
    obtain rfl : more = [] := byteLength_eq_zero_iff.mp (by omega)
    exact ⟨[], by simp, hb.symm⟩

/-- Of two front parts of a text, the one with fewer characters has no more bytes. -/
theorem byteLength_le_of_length_le {a b a' b' : Text} (h : a ++ b = a' ++ b')
    (hle : a.length ≤ a'.length) : a.byteLength ≤ a'.byteLength := by
  obtain ⟨more, rfl⟩ := List.prefix_of_prefix_length_le ⟨b, h⟩ ⟨b', rfl⟩ hle
  rw [byteLength_append]
  exact Nat.le_add_right _ _

/-- There is a text at the boundaries and nowhere else. -/
theorem isSome_atByte?_iff {s : Text} {offset : Nat} :
    (s.atByte? offset).isSome ↔ s.IsBoundary offset := by
  rw [Option.isSome_iff_exists, IsBoundary, exists_comm]
  simp only [atByte?_eq_some_iff]

/-! ### Windows -/

section Window

variable {s front : Text} {n m : Nat}

@[simp] theorem byteLength_reverse (s : Text) : byteLength s.reverse = s.byteLength := by
  induction s with
  | nil => rfl
  | cons c s ih =>
      rw [List.reverse_cons, byteLength_append, ih, byteLength, byteLength, byteLength]
      omega

theorem coverBytes_prefix (n : Nat) (s : Text) : coverBytes n s <+: s := by
  fun_induction coverBytes n s with
  | case1 s => exact List.nil_prefix
  | case2 n => exact List.nil_prefix
  | case3 n c s ih => exact (List.prefix_cons_inj c).mpr ih

theorem coverBytes_prefix_of_le (h : n ≤ m) (s : Text) : coverBytes n s <+: coverBytes m s := by
  fun_induction coverBytes n s generalizing m with
  | case1 s => exact List.nil_prefix
  | case2 n => exact List.nil_prefix
  | case3 n c s ih =>
      obtain ⟨m, rfl⟩ : ∃ k, m = k + 1 := ⟨m - 1, by omega⟩
      exact (List.prefix_cons_inj c).mpr (ih (by omega))

/-- A front part that covers `n` bytes has no less, if there are so many. -/
theorem min_le_byteLength_coverBytes (n : Nat) (s : Text) :
    min n s.byteLength ≤ (coverBytes n s).byteLength := by
  fun_induction coverBytes n s with
  | case1 s => exact Nat.min_le_left 0 _
  | case2 n => exact Nat.min_le_right _ _
  | case3 n c s ih =>
      rw [byteLength, byteLength]
      omega

/-- A front part that covers `n` bytes is the shortest one. -/
theorem byteLength_lt_of_prefix_coverBytes (h : front <+: coverBytes n s)
    (hne : front ≠ coverBytes n s) : front.byteLength < n := by
  fun_induction coverBytes n s generalizing front with
  | case1 s => exact absurd (List.prefix_nil.mp h) hne
  | case2 n => exact absurd (List.prefix_nil.mp h) hne
  | case3 n c s ih =>
      rcases List.prefix_cons_iff.mp h with rfl | ⟨tail, rfl, htail⟩
      · exact Nat.succ_pos n
      · have hlt := ih htail fun heq => hne (heq ▸ rfl)
        rw [byteLength]
        omega

/-- The last character of a front part that covers `n` bytes has four bytes at most. -/
theorem byteLength_coverBytes_le (n : Nat) (s : Text) : (coverBytes n s).byteLength ≤ n + 3 := by
  fun_induction coverBytes n s with
  | case1 s => exact Nat.zero_le _
  | case2 n => exact Nat.zero_le _
  | case3 n c s ih =>
      have hsize := c.utf8Size_le_four
      rw [byteLength]
      by_cases hle : c.utf8Size ≤ n + 1
      · omega
      · rw [Nat.sub_eq_zero_of_le (Nat.le_of_not_le hle), coverBytes, byteLength]
        omega

theorem lastBytes_suffix (n : Nat) (s : Text) : s.lastBytes n <:+ s := by
  rw [lastBytes, ← List.reverse_prefix, List.reverse_reverse]
  exact coverBytes_prefix n s.reverse

theorem lastBytes_suffix_of_le (h : n ≤ m) (s : Text) : s.lastBytes n <:+ s.lastBytes m :=
  List.reverse_suffix.mpr (coverBytes_prefix_of_le h s.reverse)

theorem min_le_byteLength_lastBytes (n : Nat) (s : Text) :
    min n s.byteLength ≤ (s.lastBytes n).byteLength := by
  rw [lastBytes, byteLength_reverse, ← byteLength_reverse s]
  exact min_le_byteLength_coverBytes n s.reverse

theorem byteLength_lastBytes_le (n : Nat) (s : Text) : (s.lastBytes n).byteLength ≤ n + 3 := by
  rw [lastBytes, byteLength_reverse]
  exact byteLength_coverBytes_le n s.reverse

/-- What is left of a window when characters are taken from its front is too short. -/
theorem byteLength_lt_of_suffix_lastBytes (h : front <:+ s.lastBytes n)
    (hne : front ≠ s.lastBytes n) : front.byteLength < n := by
  have hprefix : front.reverse <+: coverBytes n s.reverse := by
    rw [← List.reverse_suffix, List.reverse_reverse]
    exact h
  rw [← byteLength_reverse]
  refine byteLength_lt_of_prefix_coverBytes hprefix fun heq => hne ?_
  rw [lastBytes, ← heq, List.reverse_reverse]

end Window

end Text

namespace Utf8

theorem encode_append (s t : Text) : encode (s ++ t) = encode s ++ encode t :=
  List.flatMap_append

theorem length_encode (s : Text) : (encode s).length = s.byteLength := by
  induction s with
  | nil => rfl
  | cons c s ih =>
      rw [encode_cons, List.length_append, String.length_utf8EncodeChar, ih, Text.byteLength]

/-! ### ASCII characters -/

theorem utf8EncodeChar_of_ascii {c : Char} (h : c.toNat < 0x80) :
    String.utf8EncodeChar c = [c.toUInt8] := by
  have hval : c.val.toNat = c.toNat := rfl
  rw [String.utf8EncodeChar, hval, if_pos (by omega)]
  rfl

theorem toNat_ge_of_mem_utf8EncodeChar {c : Char} (h : 0x80 ≤ c.toNat) {byte : UInt8}
    (hmem : byte ∈ String.utf8EncodeChar c) : 0x80 ≤ byte.toNat := by
  have hval : c.val.toNat = c.toNat := rfl
  rw [String.utf8EncodeChar, hval, if_neg (by omega)] at hmem
  -- In the longer forms every byte is some low bits with a base from 0x80 on added to them.
  have hbase : ∀ {n base : Nat}, 0x80 ≤ base → n + base < 0x100 →
      0x80 ≤ (UInt8.ofNat (n + base)).toNat := by
    intro n base hlow hhigh
    rw [toNat_ofNat hhigh]
    omega
  split at hmem
  case isTrue =>
      simp only [List.mem_cons, List.not_mem_nil, or_false] at hmem
      rcases hmem with rfl | rfl <;> exact hbase (by omega) (by omega)
  case isFalse =>
      split at hmem
      case isTrue =>
          simp only [List.mem_cons, List.not_mem_nil, or_false] at hmem
          rcases hmem with rfl | rfl | rfl <;> exact hbase (by omega) (by omega)
      case isFalse =>
          simp only [List.mem_cons, List.not_mem_nil, or_false] at hmem
          rcases hmem with rfl | rfl | rfl | rfl <;> exact hbase (by omega) (by omega)

section Ascii

variable {mark : Char} (hmark : mark.toNat < 0x80)

include hmark

theorem toNat_toUInt8 : mark.toUInt8.toNat = mark.toNat := by
  have hval : mark.val.toNat = mark.toNat := rfl
  rw [Char.toUInt8, UInt32.toNat_toUInt8, hval]
  omega

/-- The byte of an ASCII character belongs to no other character. -/
theorem mem_utf8EncodeChar_iff {c : Char} :
    mark.toUInt8 ∈ String.utf8EncodeChar c ↔ c = mark := by
  have hbyte := toNat_toUInt8 hmark
  by_cases hc : c.toNat < 0x80
  · rw [utf8EncodeChar_of_ascii hc, List.mem_singleton]
    constructor
    · intro h
      rw [h, toNat_toUInt8 hc] at hbyte
      exact Char.toNat_inj.mp hbyte
    · intro h
      rw [h]
  · refine iff_of_false (fun h => ?_) fun h => hc (h ▸ hmark)
    have hge := toNat_ge_of_mem_utf8EncodeChar (Nat.le_of_not_lt hc) h
    omega

/-- An ASCII character stands where its byte does. -/
theorem exists_cut_of_getElem?_encode {s : Text} {i : Nat}
    (h : (encode s)[i]? = some mark.toUInt8) :
    ∃ front rest, s = front ++ mark :: rest ∧ front.byteLength = i := by
  induction s generalizing i with
  | nil => cases h
  | cons c s ih =>
      rw [encode_cons] at h
      by_cases hi : i < (String.utf8EncodeChar c).length
      · rw [List.getElem?_append_left hi] at h
        obtain rfl := (mem_utf8EncodeChar_iff hmark).mp (List.mem_of_getElem? h)
        rw [utf8EncodeChar_of_ascii hmark, List.length_singleton] at hi
        exact ⟨[], s, rfl, (Nat.lt_one_iff.mp hi).symm⟩
      · rw [List.getElem?_append_right (Nat.le_of_not_lt hi)] at h
        obtain ⟨front, rest, rfl, hlength⟩ := ih h
        rw [String.length_utf8EncodeChar] at hi hlength
        refine ⟨c :: front, rest, rfl, ?_⟩
        rw [Text.byteLength, hlength, Nat.add_sub_cancel' (Nat.le_of_not_lt hi)]

theorem getElem?_encode (front rest : Text) :
    (encode (front ++ mark :: rest))[front.byteLength]? = some mark.toUInt8 := by
  rw [encode_append, encode_cons, utf8EncodeChar_of_ascii hmark, ← length_encode,
    List.getElem?_append_right (Nat.le_refl _), Nat.sub_self]
  rfl

theorem count_encode (s : Text) : (encode s).count mark.toUInt8 = s.count mark := by
  induction s with
  | nil => rfl
  | cons c s ih =>
      rw [encode_cons, List.count_append, ih]
      by_cases hc : c = mark
      · subst hc
        rw [utf8EncodeChar_of_ascii hmark, List.count_singleton_self, List.count_cons_self,
          Nat.add_comm]
      · rw [List.count_cons_of_ne hc,
          List.count_eq_zero_of_not_mem fun h => hc ((mem_utf8EncodeChar_iff hmark).mp h),
          Nat.zero_add]

end Ascii

/-- The first bytes of a text are those of a front part of it, and perhaps some of a character that is
not an ASCII one. -/
theorem exists_prefix_take_encode (s : Text) (n : Nat) :
    ∃ front tail, front <+: s ∧ (encode s).take n = encode front ++ tail ∧
      ∀ mark : Char, mark.toNat < 0x80 → mark.toUInt8 ∉ tail := by
  induction s generalizing n with
  | nil => exact ⟨[], [], List.prefix_rfl, List.take_nil, fun _ _ => List.not_mem_nil⟩
  | cons c s ih =>
      rw [encode_cons]
      by_cases hn : n < (String.utf8EncodeChar c).length
      · refine ⟨[], (String.utf8EncodeChar c).take n, List.nil_prefix,
          List.take_append_of_le_length (Nat.le_of_lt hn), ?_⟩
        -- An ASCII character has one byte, so that none of it is taken.
        intro mark hmark hmem
        obtain rfl := (mem_utf8EncodeChar_iff hmark).mp (List.mem_of_mem_take hmem)
        rw [utf8EncodeChar_of_ascii hmark, List.length_singleton] at hn
        rw [Nat.lt_one_iff.mp hn] at hmem
        cases hmem
      · obtain ⟨front, tail, hprefix, htake, htail⟩ := ih (n - (String.utf8EncodeChar c).length)
        refine ⟨c :: front, tail, (List.prefix_cons_inj c).mpr hprefix, ?_, htail⟩
        rw [List.take_append, List.take_of_length_le (Nat.le_of_not_lt hn), htake, encode_cons,
          List.append_assoc]

end Utf8

end ActionCalls
