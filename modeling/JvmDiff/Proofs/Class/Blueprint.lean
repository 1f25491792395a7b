import JvmDiff.Class
import JvmDiff.Proofs.Entity.Order

/-!
# Blueprints of classes

A blueprint is a class with all of its parts as they are declared.  Building it brings the parts
to their canonical forms first and then the class.
-/

namespace JvmDiff.Class

/-- A class and its parts, all as declared. -/
structure Blueprint where
  name : String
  access : Access := Access.accPublic
  version : UInt32 := 0
  typeParameters : String := ""
  superclass : Option String := none
  interfaces : List String := []
  annotations : List AnnotationUse := []
  fields : List Field.Declared := []
  constructors : List Member.Declared := []
  methods : List Member.Declared := []
  innerClasses : List (String × Access) := []
deriving Repr

namespace Blueprint

/-- The declared class with its parts in canonical form. -/
def declared (blueprint : Blueprint) : Declared where
  name := blueprint.name
  version := blueprint.version
  typeParameters := blueprint.typeParameters
  superclass := blueprint.superclass
  access := blueprint.access
  annotations := blueprint.annotations
  interfaces := blueprint.interfaces
  fields := blueprint.fields.map Field.Declared.toField
  constructors := blueprint.constructors.map Member.Declared.toConstructor
  methods := blueprint.methods.map Member.Declared.toMethod
  innerClasses := blueprint.innerClasses.map fun entry => InnerClass.ofName entry.1 entry.2

def build (blueprint : Blueprint) : Class :=
  blueprint.declared.toClass

variable (blueprint : Blueprint)

theorem fields_build :
    blueprint.build.fields =
      if blueprint.build.kind = .enumeration then blueprint.fields.map Field.Declared.toField
      else Entity.sorted (blueprint.fields.map Field.Declared.toField) :=
  rfl

/-- Building a class keeps its fields, in whatever order. -/
theorem fields_perm :
    blueprint.build.fields.Perm (blueprint.fields.map Field.Declared.toField) := by
  rw [fields_build]
  by_cases enumeration : blueprint.build.kind = .enumeration
  · rw [if_pos enumeration]
  · rw [if_neg enumeration]
    exact Entity.sorted_perm _

theorem constructors_perm :
    blueprint.build.constructors.Perm
      (blueprint.constructors.map Member.Declared.toConstructor) :=
  Entity.sorted_perm _

theorem methods_perm :
    blueprint.build.methods.Perm (blueprint.methods.map Member.Declared.toMethod) :=
  Entity.sorted_perm _

theorem innerClasses_perm :
    blueprint.build.innerClasses.Perm
      (blueprint.innerClasses.map fun entry => InnerClass.ofName entry.1 entry.2) :=
  Entity.sorted_perm _

/-- Only an enumeration keeps its fields in the order of declaration. -/
theorem ascends_fields (notEnumeration : blueprint.build.kind ≠ .enumeration) :
    Entity.Ascends blueprint.build.fields := by
  rw [fields_build, if_neg notEnumeration]
  exact Entity.ascends_sorted _

/-- Fields declared in ascending order stay as they are. -/
theorem build_of_ascends
    (ascends : Entity.Ascends (blueprint.fields.map Field.Declared.toField)) :
    blueprint.build =
      { blueprint.build with fields := blueprint.fields.map Field.Declared.toField } := by
  have kept : blueprint.build.fields = blueprint.fields.map Field.Declared.toField := by
    rw [fields_build, Entity.sorted_of_ascends ascends, ite_self]
  rw [← kept]

end Blueprint

end JvmDiff.Class
