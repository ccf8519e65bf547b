import ActionCalls.Proofs.Scan.Identity
import ActionCalls.Proofs.Source.ClassHeader

/-!
# Where the supertypes of a class come from

A file gives one class record, and it has the name of the first action class and the supertypes of the
first class. Both are the same class in a file whose action class comes first. In a file with another
class in front of it, the record of the action class **has the supertypes of that other class**.
-/

namespace ActionCalls.Scanner

open Source

/-- Where the supertypes of a class are read that is declared at some place of its file. -/
structure SupertypesRead (s front behind : Text) (c : ClassRecord) : Prop where
  /-- They are read at the first place that looks like a class. -/
  headerAt_iff : ∀ front' behind', HeaderAt s front' behind' ↔ IsFirstClassPlace s front' behind'
  /-- The record has what is named behind that place. -/
  read : ∀ front' behind', HeaderAt s front' behind' →
    ∃ rest, supertypes? behind' = some (⟨c.superClass, c.interfaces⟩, rest)
  /-- It has no supertypes if there is no such place. -/
  no_place : (∀ front' behind', ¬ IsClassPlace s front' behind') → c.superClass = none ∧ c.interfaces = ∅
  /-- The place is that of the class itself if none stands in front of it, and a word behind it. -/
  own_iff : HeaderAt s front behind ↔ WordFollows behind ∧
    ∀ front' behind', IsClassPlace s front' behind' → front.length ≤ front'.length
  /-- A word stands behind it if the name of the class starts as one. -/
  named : c.name.toList.head?.any isWord = true → WordFollows behind

section Supertypes

variable {scanner : Scanner} {s front behind : Text} {c : ClassRecord}

/-- What is read of the supertypes of a class. -/
theorem classHeader_eq_of_classRecord? (h : scanner.classRecord? s = some c) :
    classHeader s = ⟨c.superClass, c.interfaces⟩ := by
  unfold classRecord? at h
  obtain ⟨package, -, h⟩ := Option.bind_eq_some_iff.mp h
  obtain ⟨name, -, h⟩ := Option.bind_eq_some_iff.mp h
  obtain rfl := Option.some.inj h
  rfl

/-- A recorded class is declared as a class or as an interface. -/
theorem exists_declaredAt_of_classRecord? (h : scanner.classRecord? s = some c) :
    ∃ keyword ∈ ["class", "interface"], ∃ front behind,
      DeclaredAt keyword scanner.classSuffix.toList s front behind := by
  have hname := (classRecord?_inv h).2.1
  rw [actionClass?, Pattern.first?, Pattern.all, List.head?_map, Option.map_map] at hname
  obtain ⟨m, hm, -⟩ := Option.map_eq_some_iff.mp hname
  exact exists_declaredAt hm

/-- **The supertypes of a class are those of the first place that looks like a class**, and the place of
the class itself is that one if nothing in front of it looks like a class. -/
theorem supertypesRead_of_classRecord? (h : scanner.classRecord? s = some c)
    (hdeclared : DeclaredAt "class" scanner.classSuffix.toList s front behind) :
    SupertypesRead s front behind c := by
  have hheader := classHeader_eq_of_classRecord? h
  exact {
    headerAt_iff := fun _ _ => Source.headerAt_iff
    read := by
      intro front' behind' hplace
      rw [← hheader]
      exact hplace.supertypes?_eq
    no_place := by
      intro hno
      rw [classHeader_of_no_place hno] at hheader
      obtain ⟨hsuper, hinterfaces⟩ := ClassHeader.mk.inj hheader
      exact ⟨hsuper.symm, hinterfaces.symm⟩
    own_iff := hdeclared.headerAt_iff
    named := by
      obtain ⟨rest, hname⟩ := hdeclared.spacedName?_eq (classRecord?_inv h).2.1
      exact wordFollows_of_spacedName? hname }

end Supertypes

/-! ### An action class behind a helper -/

/-- A file up to its action class: its package and a helper class. -/
def helperClass : Text :=
  "package app; class Helper extends Base {} ".toList

/-- What stands in front of the word `class` of the action class. -/
def loginFront : Text :=
  helperClass ++ "public ".toList

/-- What stands behind it. -/
def loginBehind : Text :=
  " LoginAction extends BaseAction {}".toList

def helperSource : Text :=
  loginFront ++ (classWord ++ loginBehind)

/-- The record of the action class: it has the superclass of the helper. -/
def helperRecord : ClassRecord where
  name := "LoginAction"
  package := "app"
  isAction := true
  superClass := some "Base"
  interfaces := ∅
  annotations := ∅

theorem classRecord?_helperSource :
    (ofSettings {} ∅ ∅).classRecord? helperSource = some helperRecord := by
  decide +kernel

theorem declaredAt_helperSource :
    DeclaredAt "class" "Action".toList helperSource loginFront loginBehind := by
  have hfirst : ((actionClause "Action".toList).allMatches helperSource).head? =
      some ⟨helperClass, "LoginAction".toList, " extends BaseAction {}".toList⟩ := by
    decide +kernel
  refine ⟨_, "public ".toList, hfirst, ⟨" ".toList, [], ?_, by simp, by decide⟩, rfl, rfl, ?_⟩
  · exact ⟨by decide, List.all_eq_true.mp (by decide)⟩
  · decide +kernel

theorem isClassPlace_helper :
    IsClassPlace helperSource "package app; ".toList
      " Helper extends Base {} public class LoginAction extends BaseAction {}".toList where
  cut := by decide +kernel
  blank := by decide
  named := ⟨" ".toList, 'H', "elper extends Base {} public class LoginAction extends BaseAction {}".toList,
    by decide +kernel, ⟨by decide, List.all_eq_true.mp (by decide)⟩, by decide⟩

theorem supertypesRead_of_classRecord?_helperSource :
    SupertypesRead helperSource loginFront loginBehind helperRecord :=
  supertypesRead_of_classRecord? classRecord?_helperSource declaredAt_helperSource

/-- Are the supertypes of the class of a file read where the class is declared? -/
def SupertypesBelong (scanner : Scanner) (s : Text) : Prop :=
  ∀ c front behind, scanner.classRecord? s = some c →
    DeclaredAt "class" scanner.classSuffix.toList s front behind → HeaderAt s front behind

/-- The helper in front of the action class looks like a class too. -/
theorem not_supertypesBelong_helperSource : ¬ (ofSettings {} ∅ ∅).SupertypesBelong helperSource := by
  intro h
  have hheader := h helperRecord loginFront loginBehind classRecord?_helperSource declaredAt_helperSource
  have hle := hheader.isFirst.first _ _ isClassPlace_helper
  exact absurd hle (by decide)

end ActionCalls.Scanner
