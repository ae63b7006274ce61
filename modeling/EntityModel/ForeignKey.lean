import EntityModel.Annotations.Use

/-!
# Foreign keys

A foreign key of an entity refers to another entity by pairs of attributes. A pair may leave the
referenced attribute open; it then stands for the key of the referenced entity.
-/

namespace EntityModel

structure Binding where
  origin : String
  referenced? : Option String
deriving Repr, DecidableEq

structure ForeignKey where
  name : String
  origin : String
  referenced : String
  bindings : List Binding
  linkAnnotations : List AnnotationUse
deriving Repr, DecidableEq

namespace ForeignKey

def binds (fk : ForeignKey) (attr : String) : Bool := fk.bindings.any fun b => b.origin == attr

def firstField? (fk : ForeignKey) : Option String := fk.bindings.head?.map Binding.origin

/-- Some binding leaves its referenced attribute open. -/
def isImplicit (fk : ForeignKey) : Bool := fk.bindings.any fun b => b.referenced?.isNone

/-- Adds a column and its link annotations. An annotation of a kind that the key carries already
is not added; these are the second result. -/
def addBinding (fk : ForeignKey) (b : Binding) (uses : List AnnotationUse) :
    ForeignKey × List AnnotationUse :=
  let carried (u : AnnotationUse) : Bool := fk.linkAnnotations.any fun v => v.kind == u.kind
  ({ fk with
      bindings := fk.bindings ++ [b]
      linkAnnotations := fk.linkAnnotations ++ uses.filter fun u => !carried u },
    uses.filter carried)

end ForeignKey

end EntityModel
