import SchemaDelta.Script.Plan

/-!
# Changes of views

Views are dropped before any is created, so a view that is replaced frees its name first. A view is
created only if it has a query.
-/

namespace SchemaDelta

namespace ViewSteps

/-- The view that a delta describes. -/
def view? (d : Changed Model.View) : Option View :=
  View.ofNode? d.node ⟨d.schema, none⟩

/-- The removal of the view. -/
def drop (d : Changed Model.View) : List Step :=
  ((view? d).map .dropView).toList

/-- The creation of the view. -/
def create (d : Changed Model.View) : List Step :=
  (((view? d).filter View.hasQuery).map .createView).toList

end ViewSteps

/-- The steps of the views. -/
def viewSteps (c : Category) : List Step :=
  planItems Model.View.read? c.deleted .deleted ViewSteps.drop ++
    planItems Model.View.read? c.added .created ViewSteps.create

end SchemaDelta
