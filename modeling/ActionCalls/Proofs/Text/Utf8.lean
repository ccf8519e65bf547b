import ActionCalls.Text.Utf8
import Mathlib.Algebra.GroupWithZero.Nat

/-!
# Text written as bytes and read back

The bytes of a text are read as this text (`decode?_encode`), one character after the other
(`pieces_utf8EncodeChar`). The first byte of a character says how many bytes follow and in which range
the second one lies. That range never excludes a character: it is narrower only where a smaller second
byte would be a long form, and where a greater one would be a surrogate or beyond the last plane.

Texts are ordered as their bytes (`encode_lt_encode`): the first byte of a character tells its size, and
behind it the bytes are the digits of its number.
-/

namespace ActionCalls.Utf8

variable {bytes : Bytes}

theorem pieces_complete {byte : UInt8} {c : Char} (h : start byte = .complete c) :
    pieces none (byte :: bytes) = some c :: pieces none bytes := by
  rw [pieces]
  simp only [h]

theorem pieces_begun {byte : UInt8} {p : Pending} (h : start byte = .begun p) :
    pieces none (byte :: bytes) = pieces (some p) bytes := by
  rw [pieces]
  simp only [h]

theorem toNat_ofNat {n : Nat} (hn : n < 256) : (UInt8.ofNat n).toNat = n := by
  rw [UInt8.toNat_ofNat']
  omega

/-- A byte that goes on with a character. -/
theorem pieces_next {n missing low high value : Nat} (hn : n < 256) (hlow : low ≤ n)
    (hhigh : n ≤ high) :
    pieces (some ⟨missing, low, high, value⟩) (UInt8.ofNat n :: bytes) =
      if missing = 1 then some (Char.ofNat (value * 0x40 + (n - 0x80))) :: pieces none bytes
      else pieces (some ⟨missing - 1, 0x80, 0xBF, value * 0x40 + (n - 0x80)⟩) bytes := by
  rw [pieces]
  simp only [toNat_ofNat hn, hlow, hhigh, and_self, if_true]

/-! ### First bytes -/

theorem start_two {a : Nat} (hlow : 2 ≤ a) (hhigh : a < 0x20) :
    start (UInt8.ofNat (a + 0xC0)) = .begun ⟨1, 0x80, 0xBF, a⟩ := by
  simp only [start, toNat_ofNat (show a + 0xC0 < 256 by omega)]
  grind

theorem start_three {a : Nat} (ha : a < 0x10) :
    start (UInt8.ofNat (a + 0xE0)) =
      .begun ⟨2, if a = 0 then 0xA0 else 0x80, if a = 0xD then 0x9F else 0xBF, a⟩ := by
  simp only [start, toNat_ofNat (show a + 0xE0 < 256 by omega)]
  grind

theorem start_four {a : Nat} (ha : a < 5) :
    start (UInt8.ofNat (a + 0xF0)) =
      .begun ⟨3, if a = 0 then 0x90 else 0x80, if a = 4 then 0x8F else 0xBF, a⟩ := by
  simp only [start, toNat_ofNat (show a + 0xF0 < 256 by omega)]
  grind

/-! ### Characters and texts -/

theorem encode_cons (c : Char) (s : Text) :
    encode (c :: s) = String.utf8EncodeChar c ++ encode s :=
  List.flatMap_cons

/-- The bytes of a character are read as this character. -/
theorem pieces_utf8EncodeChar (c : Char) (bytes : Bytes) :
    pieces none (String.utf8EncodeChar c ++ bytes) = some c :: pieces none bytes := by
  have hvalid : c.toNat < 0xD800 ∨ 0xDFFF < c.toNat ∧ c.toNat < 0x110000 := c.valid
  have hchar : Char.ofNat c.toNat = c := Char.ofNat_toNat c
  have hval : c.val.toNat = c.toNat := rfl
  rw [String.utf8EncodeChar, hval]
  generalize c.toNat = v at *
  by_cases hone : v ≤ 0x7F
  · have hfirst : start (UInt8.ofNat v) = .complete c := by
      rw [start, toNat_ofNat (by omega), if_pos (by omega), hchar]
    rw [if_pos hone, List.singleton_append, pieces_complete hfirst]
  by_cases htwo : v ≤ 0x7FF
  · have hfirst := start_two (a := v / 64) (by omega) (by omega)
    have hvalue : v / 64 * 0x40 + (v % 0x40 + 0x80 - 0x80) = v := by omega
    rw [if_neg hone, if_pos htwo, Nat.mod_eq_of_lt (show v / 64 < 0x20 by omega)]
    simp only [List.cons_append, List.nil_append]
    rw [pieces_begun hfirst, pieces_next (by omega) (by omega) (by omega), if_pos rfl, hvalue, hchar]
  by_cases hthree : v ≤ 0xFFFF
  · have hfirst := start_three (a := v / 4096) (by omega)
    have hvalue : (v / 4096 * 0x40 + (v / 64 % 0x40 + 0x80 - 0x80)) * 0x40 +
        (v % 0x40 + 0x80 - 0x80) = v := by omega
    rw [if_neg hone, if_neg htwo, if_pos hthree, Nat.mod_eq_of_lt (show v / 4096 < 0x10 by omega)]
    simp only [List.cons_append, List.nil_append]
    rw [pieces_begun hfirst, pieces_next (by omega) (by split <;> omega) (by split <;> omega),
      if_neg (by decide), pieces_next (by omega) (by omega) (by omega), if_pos rfl, hvalue, hchar]
  · have hfirst := start_four (a := v / 262144) (by omega)
    have hvalue : ((v / 262144 * 0x40 + (v / 4096 % 0x40 + 0x80 - 0x80)) * 0x40 +
        (v / 64 % 0x40 + 0x80 - 0x80)) * 0x40 + (v % 0x40 + 0x80 - 0x80) = v := by omega
    rw [if_neg hone, if_neg htwo, if_neg hthree, Nat.mod_eq_of_lt (show v / 262144 < 0x08 by omega)]
    simp only [List.cons_append, List.nil_append]
    rw [pieces_begun hfirst, pieces_next (by omega) (by split <;> omega) (by split <;> omega),
      if_neg (by decide), pieces_next (by omega) (by omega) (by omega), if_neg (by decide),
      pieces_next (by omega) (by omega) (by omega), if_pos rfl, hvalue, hchar]

/-- The bytes of a text are read as this text. -/
theorem decode?_encode (s : Text) : decode? (encode s) = some s := by
  have hpieces : pieces none (encode s) = s.map some := by
    induction s with
    | nil => rfl
    | cons c s ih => rw [encode_cons, pieces_utf8EncodeChar, ih]; rfl
  have hall : s.mapM (fun c => (pure c : Option Char)) = pure (s.map id) := List.mapM_pure
  rw [decode?, hpieces, List.mapM_map]
  rwa [List.map_id] at hall

theorem encode_ne_nil {s : Text} (h : s ≠ []) : encode s ≠ [] := by
  obtain ⟨c, s, rfl⟩ := List.exists_cons_of_ne_nil h
  rw [encode_cons]
  exact List.append_ne_nil_of_left_ne_nil String.utf8EncodeChar_ne_nil _

/-! ### The order of texts -/

/-- How many bytes follow the first one of a character. -/
def following (v : Nat) : Nat :=
  if v ≤ 0x7F then 0 else if v ≤ 0x7FF then 1 else if v ≤ 0xFFFF then 2 else 3

/-- The first byte of a character: what is left of its number, with a mark for its size. -/
def first (v : Nat) : Nat :=
  if v ≤ 0x7F then v else if v ≤ 0x7FF then v / 64 + 0xC0 else
    if v ≤ 0xFFFF then v / 4096 + 0xE0 else v / 262144 + 0xF0

/-- The last `n` bytes of a character that has more. -/
def lastOf : (n : Nat) → (v : Nat) → Bytes
  | 0, _ => []
  | n + 1, v => UInt8.ofNat (v / 64 ^ n % 64 + 0x80) :: lastOf n v

theorem toNat_lt (c : Char) : c.toNat < 0x110000 := by
  rcases c.valid with hlow | ⟨-, hhigh⟩
  · exact Nat.lt_trans hlow (by decide)
  · exact hhigh

theorem utf8EncodeChar_eq (c : Char) :
    String.utf8EncodeChar c = UInt8.ofNat (first c.toNat) :: lastOf (following c.toNat) c.toNat := by
  have hmax := toNat_lt c
  have hval : c.val.toNat = c.toNat := rfl
  rw [String.utf8EncodeChar, hval, first, following]
  generalize c.toNat = v at *
  split
  case isTrue => rfl
  case isFalse =>
    split
    case isTrue =>
      rw [Nat.mod_eq_of_lt (show v / 64 < 32 by omega)]
      simp [lastOf]
    case isFalse =>
      split
      case isTrue =>
        rw [Nat.mod_eq_of_lt (show v / 4096 < 16 by omega)]
        simp [lastOf]
      case isFalse =>
        rw [Nat.mod_eq_of_lt (show v / 262144 < 8 by omega)]
        simp [lastOf]

theorem ofNat_cons_lt_iff {a b : Nat} {x y : Bytes} (ha : a < 256) (hb : b < 256) :
    UInt8.ofNat a :: x < UInt8.ofNat b :: y ↔ a < b ∨ a = b ∧ x < y := by
  rw [List.cons_lt_cons_iff, UInt8.lt_iff_toNat_lt, ← UInt8.toNat_inj, toNat_ofNat ha, toNat_ofNat hb]

theorem lastOf_append_lt {n v w : Nat} (h : v % 64 ^ n < w % 64 ^ n) (x y : Bytes) :
    lastOf n v ++ x < lastOf n w ++ y := by
  induction n with
  | zero => omega
  | succ n ih =>
      rw [Nat.mod_pow_succ, Nat.mod_pow_succ] at h
      rw [lastOf, lastOf, List.cons_append, List.cons_append, ofNat_cons_lt_iff (by omega) (by omega)]
      rcases Nat.lt_trichotomy (v / 64 ^ n % 64) (w / 64 ^ n % 64) with hlt | heq | hgt
      · exact Or.inl (Nat.add_lt_add_right hlt _)
      · rw [heq] at h ⊢
        exact Or.inr ⟨rfl, ih (Nat.lt_of_add_lt_add_right h)⟩
      · -- The greater digit outweighs whatever follows the smaller one.
        have hrest := Nat.mod_lt w (Nat.pow_pos (n := n) (show 0 < 64 by decide))
        have hdigit := Nat.mul_le_mul_left (64 ^ n) hgt
        rw [Nat.mul_succ] at hdigit
        omega

/-- Of two numbers the smaller one has the smaller first byte, or it has as many bytes and the difference
is in the others. -/
theorem first_lt_or {v w : Nat} (h : v < w) :
    first v < first w ∨ first v = first w ∧ following v = following w ∧
      v % 64 ^ following v < w % 64 ^ following v := by
  unfold first following
  by_cases hone : v ≤ 0x7F
  · simp only [hone, if_true]
    split <;> (try split) <;> (try split) <;> omega
  · by_cases htwo : v ≤ 0x7FF
    · simp only [hone, htwo, if_true, if_false, show ¬ w ≤ 0x7F by omega]
      split <;> (try split) <;> omega
    · by_cases hthree : v ≤ 0xFFFF
      · simp only [hone, htwo, hthree, if_true, if_false, show ¬ w ≤ 0x7F by omega,
          show ¬ w ≤ 0x7FF by omega]
        split <;> omega
      · simp only [hone, htwo, hthree, if_false, show ¬ w ≤ 0x7F by omega,
          show ¬ w ≤ 0x7FF by omega, show ¬ w ≤ 0xFFFF by omega, true_and]
        omega

theorem first_lt (c : Char) : first c.toNat < 256 := by
  have hmax := toNat_lt c
  unfold first
  split
  · omega
  · split
    · omega
    · split <;> omega

/-- The bytes of characters are ordered as the characters, whatever follows them. -/
theorem utf8EncodeChar_append_lt {c d : Char} (h : c < d) (x y : Bytes) :
    String.utf8EncodeChar c ++ x < String.utf8EncodeChar d ++ y := by
  have hval : c.toNat < d.toNat := h
  rw [utf8EncodeChar_eq, utf8EncodeChar_eq, List.cons_append, List.cons_append,
    ofNat_cons_lt_iff (first_lt c) (first_lt d)]
  rcases first_lt_or hval with hlt | ⟨heq, hfollowing, hrest⟩
  · exact Or.inl hlt
  · rw [← hfollowing]
    exact Or.inr ⟨heq, lastOf_append_lt hrest x y⟩

/-- **Texts are ordered as their bytes.** -/
theorem encode_lt_encode {s t : Text} (h : s < t) : encode s < encode t := by
  induction h with
  | nil =>
      obtain ⟨byte, bytes, h⟩ := List.exists_cons_of_ne_nil (encode_ne_nil (List.cons_ne_nil _ _))
      rw [h]
      exact List.nil_lt_cons byte bytes
  | rel h =>
      rw [encode_cons, encode_cons]
      exact utf8EncodeChar_append_lt h _ _
  | cons _ ih =>
      rw [encode_cons, encode_cons]
      exact List.append_left_lt ih

end ActionCalls.Utf8
