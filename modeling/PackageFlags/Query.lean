import PackageFlags.Flags.Merging
import PackageFlags.Order
import PackageFlags.Registry.Building
import PackageFlags.Selection.Propagation

/-!
# Asking for the flags of a package

A query is answered in four steps over one registry: load the package with all that
it requires, propagate what is asked of it, order the packages that are used, and
merge their settings. The registry may hold packages of earlier queries.
-/

namespace PackageFlags

/-- What is asked for. -/
structure Query where
  /-- The name of the package. -/
  name : String
  /-- Components of the package. -/
  components : List String := []
  /-- Whether its default components are wanted too. -/
  useDefaults : Bool := true
  /-- An installation root in place of that of every package. -/
  root : Option Path := none
  deriving DecidableEq, Repr

/-- Warnings in order, with the flags or why there are none. -/
structure Answer where
  /-- The warnings. -/
  warnings : List Warning
  /-- The flags, or why there are none. -/
  outcome : Except Failure Flags

namespace Query

/-- What is asked of the package itself. -/
def wanted (query : Query) : Wanted where
  defaults := query.useDefaults
  components := query.components

/-- The flags that a query gets from a graph in which its package is the
root. -/
def answerAt (query : Query) (graph : Graph) (root : NodeId) : Answer :=
  let propagation := Selection.propagate graph root query.wanted
  { warnings := propagation.warnings
    outcome :=
      match propagation.outcome with
      | .error failure => .error failure
      | .ok selection =>
          graph.aggregate selection (graph.flatten selection root)
            query.root }

/-- Answer a query with a registry, which grows by the packages that are
loaded. -/
def resolve
    (query : Query)
    (world : World)
    (registry : Registry) : Registry × Answer :=
  match registry.build world query.name { components := query.components } with
  | (grown, .error failure) =>
      (grown, { warnings := [], outcome := .error failure })
  | (grown, .ok root) => (grown, query.answerAt grown.graph root)

/-- Answer a query with a registry of its own. -/
def find (query : Query) (world : World) : Answer :=
  (query.resolve world Registry.empty).2

end Query
end PackageFlags
