import RadixRouter.Handler.Basic
import RadixRouter.Router.Switches
import RadixRouter.Tree.Insert
import RadixRouter.Tree.Lookup

/-!
A router holds one tree of routes for each method, in the order in which the methods first
occurred. Here are its registration and the questions about what is registered.
-/

namespace RadixRouter

/-- The routes of one method. -/
structure MethodTree where
  method : Method
  tree : Tree Endpoint

/-- A routing table with its policy. -/
structure Router where
  trees : List MethodTree := []
  switches : Switches := {}
  notFound : Option Handler := none
  methodNotAllowed : Option Handler := none
  panicHandler : Option PanicHandler := none

namespace Router

/-- The routes of `method`, if it has any. -/
def tree? (router : Router) (method : Method) : Option (Tree Endpoint) :=
  (router.trees.find? (·.method = method)).map MethodTree.tree

/-- Puts `tree` in the place of the routes of `method`, at the end if the method is new. A tree
without routes is left out. -/
def putTree (router : Router) (method : Method) (tree : Tree Endpoint) : Router :=
  if tree.isEmpty then { router with trees := router.trees.filter (·.method ≠ method) }
  else if router.trees.any (·.method = method) then
    { router with
      trees := router.trees.map fun t => if t.method = method then ⟨method, tree⟩ else t }
  else { router with trees := router.trees ++ [⟨method, tree⟩] }

/-- Registers an endpoint for `method` under its pattern. -/
def register (router : Router) (method : Method) (endpoint : Endpoint) :
    Router × Except RouteError Unit :=
  let (tree, result) := ((router.tree? method).getD .empty).insert endpoint.pattern endpoint
  (router.putTree method tree, result.mapError (·.withMethod method.name))

/-- Registers a route for `method` under `pattern` and tells the route's callback. -/
def handle (router : Router) (method : Method) (pattern : Text) (route : Route) :
    Run (Router × Except RouteError Unit) := do
  let (router, result) := router.register method ⟨pattern, route.handler, route.preHandler⟩
  match result with
  | .error fault => return (router, .error fault)
  | .ok () =>
      match route.onRegistered with
      | some callback => callback method pattern
      | none => pure ()
      return (router, .ok ())

/-- Resolves `path`, as it is, among the routes of `method`. -/
def lookup (router : Router) (method : Method) (path : Text) : Lookup Endpoint :=
  match router.tree? method with
  | some tree => tree.lookup path
  | none => .miss false

def routes (router : Router) : List (Method × Text) :=
  router.trees.flatMap fun t => t.tree.patterns.map (t.method, ·)

/-- The methods other than `method` that have a route for `path`; for `*`, all methods with
routes. OPTIONS counts for neither. -/
def allowedMethods (router : Router) (path : Text) (method : Method) : List Method :=
  let trees :=
    if path = ['*'] then router.trees.filter (·.method ≠ Method.options)
    else router.trees.filter fun t =>
      t.method ≠ method && t.method ≠ Method.options && (t.tree.lookup path).isHit
  trees.map MethodTree.method

/-- The methods that a client may use for `path` instead of `method`, with OPTIONS at the end, if
there are any. -/
def allowed (router : Router) (path : Text) (method : Method) : Option Text :=
  match router.allowedMethods path method with
  | [] => none
  | methods =>
      some (List.intercalate [',', ' '] ((methods ++ [Method.options]).map Method.name))

end Router

end RadixRouter
