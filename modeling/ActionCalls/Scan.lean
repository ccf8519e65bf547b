import ActionCalls.Graph.Tables
import ActionCalls.Resolution
import ActionCalls.Source.ClassHeader
import ActionCalls.Source.Package

/-!
# Scanning a file

A file that has a package and an action class gives a list of findings: its class, and each of its
declared methods with the calls in the body of the method. Any other file gives nothing.
-/

namespace ActionCalls

/-- How files are scanned. -/
structure Scanner where
  /-- The ending of the class names that are looked for. -/
  classSuffix : String
  /-- The ending that makes a class an action class. -/
  actionSuffix : String
  /-- How many bytes before a declaration are searched for its annotations. -/
  lookback : Nat
  filter : CallFilter
  /-- The packages of the project. -/
  project : NameSet

namespace Scanner

/-- The scanner of an analysis. -/
def ofSettings (settings : AnalysisSettings) (blacklist : Blacklist) (project : NameSet) :
    Scanner where
  classSuffix := settings.actionSuffix
  actionSuffix := settings.actionSuffix
  lookback := settings.annotationLookback
  filter := .ofSettings settings blacklist
  project := project

/-- The record of the class that a file declares. -/
def classRecord? (scanner : Scanner) (s : Text) : Option ClassRecord := do
  let package ← Source.packageName? s
  let name ← Source.actionClass? scanner.classSuffix s
  let header := Source.classHeader s
  return {
    name := name
    package := package
    isAction := scanner.actionSuffix.toList.isSuffixOf name.toList
    superClass := header.superClass
    interfaces := header.interfaces
    annotations := Source.annotations s }

/-- The declarations of a file that are not on the blacklist. -/
def declarations (scanner : Scanner) (s : Text) : List Source.MethodDeclaration :=
  (Source.methodDeclarations scanner.lookback s).filter fun declaration =>
    declaration.name ∉ scanner.filter.blacklist

/-- What is known in the bodies of a class of the file. -/
def context (scanner : Scanner) (s : Text) (c : ClassRecord) : CallContext where
  package := c.package
  owner := c.name
  imports := Source.imports s
  localMethods := .ofList ((scanner.declarations s).map (·.name))

/-- The findings for one declaration: its node, and the targets called in its body. -/
def declarationFindings (scanner : Scanner) (c : ClassRecord) (context : CallContext)
    (declaration : Source.MethodDeclaration) : List Finding :=
  let node := MethodNode.declared c declaration
  [.methodFound node,
   .callsFound node.id (resolveBody scanner.project scanner.filter context declaration.body)]

/-- The findings in a file whose class is known. -/
def findings (scanner : Scanner) (s : Text) (c : ClassRecord) : List Finding :=
  .classFound c ::
    (scanner.declarations s).flatMap (scanner.declarationFindings c (scanner.context s c))

/-- Enters the findings in a file, and names the class it declares. -/
def scan (scanner : Scanner) (tables : Tables) (s : Text) : Tables × Option String :=
  match scanner.classRecord? s with
  | some c => (tables.enterAll (scanner.findings s c), some c.qualifiedName)
  | none => (tables, none)

/-- Enters the findings in several files, one file after the other. -/
def scanAll (scanner : Scanner) (tables : Tables) (texts : List Text) : Tables :=
  texts.foldl (fun tables s => (scanner.scan tables s).1) tables

end Scanner

end ActionCalls
