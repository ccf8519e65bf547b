import Std.Data.ExtTreeSet
import ActionCalls.Text.Basic

/-!
# Call targets

Where a call goes: a method of a package, and of a class of that package where the class is known.
A target has a dotted id, and a dotted id can be split into a target without a class. The two are
not inverse: distinct targets may share an id, and an id whose only dot leads loses that dot.
-/

namespace ActionCalls

/-- The destination of a call. -/
structure CallTarget where
  package : String
  /-- The class of the method, known only where the calling class declares it. -/
  owner : Option String
  method : String
  deriving Repr, DecidableEq

namespace CallTarget

/-- Targets are ordered by package, then class, an unknown class coming first, then method. -/
instance : Ord CallTarget where
  compare := compareLex (compareOn package) (compareLex (compareOn owner) (compareOn method))

instance : Std.TransOrd CallTarget :=
  inferInstanceAs (Std.TransCmp
    (compareLex (compareOn package) (compareLex (compareOn owner) (compareOn method))))

instance : Std.LawfulEqOrd CallTarget where
  eq_of_compare {a b} h := by
    obtain ⟨hp, h⟩ := compareLex_eq_eq.mp h
    obtain ⟨ho, hm⟩ := compareLex_eq_eq.mp h
    have hp := Std.LawfulEqOrd.eq_of_compare hp
    have ho := Std.LawfulEqOrd.eq_of_compare ho
    have hm := Std.LawfulEqOrd.eq_of_compare hm
    cases a
    cases b
    simp_all

/-- A method of a package, its class being unknown. -/
def inPackage (package method : String) : CallTarget := ⟨package, none, method⟩

/-- A method of a class. -/
def inClass (package owner method : String) : CallTarget := ⟨package, some owner, method⟩

/-- The dotted id: class and package come before the method where they are there. -/
def id (target : CallTarget) : String :=
  match target.owner with
  | some owner => target.package ++ "." ++ owner ++ "." ++ target.method
  | none => if target.package = "" then target.method else target.package ++ "." ++ target.method

end CallTarget

/-- What stands before and behind the last dot of a text. -/
def Text.splitLastDot? (s : Text) : Option (Text × Text) :=
  match s.reverse.dropWhile (· ≠ '.') with
  | [] => none
  | _ :: front => some (front.reverse, (s.reverse.takeWhile (· ≠ '.')).reverse)

/-- The target that an id names: the method behind the last dot, of the package before it. -/
def CallTarget.ofQualified (id : String) : CallTarget :=
  match Text.splitLastDot? id.toList with
  | some (package, method) => inPackage (String.ofList package) (String.ofList method)
  | none => inPackage "" id

end ActionCalls
