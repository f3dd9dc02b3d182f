import RadixRouter.Router.Shared
import RadixRouter.Text.Quoted

/-!
Routers, endpoints and routes as text for inspection: the name of the thing, and its fields by
name.
-/

namespace RadixRouter

namespace Inspect

/-- A thing with all its fields. -/
def record (name : Text) (fields : List (Text × Text)) : Text :=
  name ++ " \x7b ".toList
    ++ List.intercalate [',', ' '] (fields.map fun (field, value) => field ++ ": ".toList ++ value)
    ++ " \x7d".toList

/-- A thing with some of its fields. -/
def openRecord (name : Text) (fields : List (Text × Text)) : Text :=
  name ++ " \x7b ".toList
    ++ List.intercalate [',', ' '] (fields.map fun (field, value) => field ++ ": ".toList ++ value)
    ++ ", .. \x7d".toList

def flag (b : Bool) : Text :=
  if b then "true".toList else "false".toList

def texts (items : List Text) : Text :=
  '[' :: List.intercalate [',', ' '] (items.map Quoted.encode) ++ [']']

end Inspect

open Inspect

def Switches.inspect (switches : Switches) : Text :=
  record "RouterConfig".toList
    (Switch.all.map fun switch => (switch.name, flag (Switch.get switches switch)))

def Router.inspect (router : Router) : Text :=
  record "Router".toList
    [("methods".toList, texts (router.trees.map (·.method.name))),
      ("config".toList, router.switches.inspect),
      ("not_found".toList, flag router.notFound.isSome),
      ("method_not_allowed".toList, flag router.methodNotAllowed.isSome),
      ("panic_handler".toList, flag router.panicHandler.isSome)]

def SharedRouter.inspect (shared : SharedRouter) : Text :=
  record "SharedRouter".toList [("current".toList, shared.current.inspect)]

def Endpoint.inspect (endpoint : Endpoint) : Text :=
  openRecord "Endpoint".toList
    [("pattern".toList, Quoted.encode endpoint.pattern),
      ("pre_handler".toList, flag endpoint.preHandler.isSome)]

def Route.inspect (route : Route) : Text :=
  openRecord "Route".toList
    [("pre_handler".toList, flag route.preHandler.isSome),
      ("on_registered".toList, flag route.onRegistered.isSome)]

end RadixRouter
