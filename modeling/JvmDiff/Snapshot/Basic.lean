import JvmDiff.Class
import JvmDiff.Package
import JvmDiff.Problem

/-!
# Snapshots

A snapshot holds the classes of one version, the packages that follow from them, and what could
not be read.  Of two definitions of one class the first counts, and the later one is a failure.
-/

namespace JvmDiff

/-- A class that could not be loaded. -/
structure LoadFailure where
  className : String
  path : String
  reason : String
  errorCode : String
deriving DecidableEq, Repr

/-- A class with the file that it was read from, empty if there is none. -/
structure Source where
  path : String := ""
  content : Class
deriving DecidableEq, Repr

/-- A definition of a class that was defined before. -/
structure Redefinition where
  className : String
  path : String
  /-- The file with the definition that counts. -/
  firstPath : String
deriving DecidableEq, Repr

namespace Redefinition

/-- Where the definition stands; one without a file stands for the whole
snapshot. -/
def place (root : String) (redefinition : Redefinition) : String :=
  if redefinition.path = "" then root else redefinition.path

/-- The redefinition as a failure. -/
def failure (root : String) (redefinition : Redefinition) : LoadFailure where
  className := redefinition.className
  path := redefinition.place root
  reason :=
    "duplicate definition of " ++ redefinition.className ++ " (first read from '" ++
      redefinition.firstPath ++ "')"
  errorCode := ProblemKind.invalidModel.code

end Redefinition

/-- The classes and packages of one version, in the order of their names, and
the failures in the order in which they were met. -/
structure Snapshot where
  root : String
  classes : List Class
  packages : List Package
  failures : List LoadFailure
deriving DecidableEq, Repr

namespace Snapshot

/-- The first source of a class with the name. -/
def firstSource? (sources : List Source) (name : String) : Option Source :=
  sources.find? fun source => source.content.name = name

/-- The sources of classes that no source in front of them defines; `earlier`
lists those in front, the latest first. -/
def definitions (earlier : List Source) : List Source → List Source
  | [] => []
  | source :: sources =>
      if earlier.any fun other => other.content.name = source.content.name then
        definitions earlier sources
      else
        source :: definitions (source :: earlier) sources

/-- The redefinition that a source is, if a source in front of it defines the
same class. -/
def redefinition? (earlier : List Source) (source : Source) : Option Redefinition :=
  (firstSource? earlier source.content.name).map fun first =>
    ⟨source.content.name, source.path, first.path⟩

/-- The sources of classes that a source in front of them defines. -/
def redefinitionsAfter (earlier : List Source) : List Source → List Redefinition
  | [] => []
  | source :: sources =>
      match redefinition? earlier source with
      | some redefinition => redefinition :: redefinitionsAfter earlier sources
      | none => redefinitionsAfter (source :: earlier) sources

/-- The sources that stand for packages. -/
def packageInfos (sources : List Source) : List Source :=
  sources.filter fun source => source.content.isPackageInfo

/-- The sources that do not stand for packages. -/
def ordinary (sources : List Source) : List Source :=
  sources.filter fun source => !source.content.isPackageInfo

/-- The classes that are defined again. -/
def redefinitions (sources : List Source) : List Redefinition :=
  redefinitionsAfter [] (ordinary sources)

/-- The classes of the sources, by their first definitions, in the order of
their names. -/
def classesOf (sources : List Source) : List Class :=
  ((definitions [] (ordinary sources)).map Source.content).mergeSort fun first second =>
    Text.le first.name second.name

/-- The entry of a class in its package. -/
def entry (c : Class) : InnerClass :=
  InnerClass.ofName c.name c.access

/-- The package with the name, of the annotations of its own and the classes that
are not declared inside others. -/
def package (infos outer : List Class) (name : String) : Package :=
  Package.build name
    ((infos.filter fun info => info.package = name).flatMap Class.annotations)
    ((outer.filter fun c => c.package = name).map entry)

/-- The packages of the classes and of those that stand for packages. -/
def packagesOf (infos classes : List Class) : List Package :=
  let outer := classes.filter fun c => !c.isNested
  (Text.distinct ((outer ++ infos).map Class.package)).map (package infos outer)

/-- The snapshot of the sources, with failures that were met before. -/
def ofSources (root : String) (sources : List Source) (failures : List LoadFailure) :
    Snapshot :=
  let classes := classesOf sources
  { root := root
    classes := classes
    packages := packagesOf ((packageInfos sources).map Source.content) classes
    failures := failures ++ (redefinitions sources).map (Redefinition.failure root) }

def class? (snapshot : Snapshot) (name : String) : Option Class :=
  snapshot.classes.find? fun c => c.name = name

def package? (snapshot : Snapshot) (name : String) : Option Package :=
  snapshot.packages.find? fun package => package.name = name

/-- The names of the classes that failed, in ascending order. -/
def failedNames (snapshot : Snapshot) : List String :=
  Text.distinct (snapshot.failures.map LoadFailure.className)

end Snapshot

end JvmDiff
