import RadixRouter.Files.Directory
import RadixRouter.Logging.Event
import RadixRouter.Text.Quoted

/-!
A small routing table to try the router with, and a report on how it answers a request.
-/

namespace RadixRouter.Demo

def answer (status : Nat) (parts : List Text) : Run Response :=
  pure (.plain status parts.flatten)

def index : Handler := fun _ _ _ =>
  answer 200 ["Welcome!\n".toList]

def hello : Handler := fun _ params _ =>
  answer 200 ["hello, ".toList, (Params.get? params "name".toList).getD [], "!\n".toList]

def showUser : Handler := fun _ params context =>
  answer 200 ["user ".toList, (Params.get? params "id".toList).getD [], " (request ".toList,
    context.requestId.write, ")\n".toList]

def newUserForm : Handler := fun _ _ _ =>
  answer 200 ["new user form\n".toList]

def createUser : Handler := fun request _ _ =>
  answer 201 ["created user from ".toList, Nat.toDigits 10 request.body.length, " bytes\n".toList]

def userFile : Handler := fun _ params _ =>
  answer 200 ["user ".toList, (Params.get? params "id".toList).getD [], " file ".toList,
    Quoted.encode ((Params.get? params mountName).getD []), "\n".toList]

def explode : Handler := fun _ _ _ =>
  Run.panic (.text "demo panic".toList)

def recover : PanicHandler := fun _ cause =>
  answer 500 ["internal error: ".toList, cause.message, "\n".toList]

/-- The pattern under which files are shown. -/
def staticPattern : Text := "/static".toList ++ mountSuffix

def routes (files : Option FileSystem) : List (Method × Text × Handler) :=
  [(Method.get, "/".toList, index),
   (Method.get, "/hello/:name".toList, hello),
   (Method.get, "/users/:id".toList, showUser),
   (Method.get, "/users/new".toList, newUserForm),
   (Method.post, "/users".toList, createUser),
   (Method.get, "/users/:id/files/*filepath".toList, userFile),
   (Method.get, "/panic".toList, explode)]
  ++ (files.map fun files => (Method.get, staticPattern, fileHandler files)).toList

def router (switches : Switches) (files : Option FileSystem) : Router :=
  (routes files).foldl (fun router (method, pattern, handler) =>
    (router.register method ⟨pattern, handler, none⟩).1)
    { switches := switches, panicHandler := some recover }

def registrationEvents (files : Option FileSystem) : List LogEvent :=
  (routes files).map fun (method, pattern, _) =>
    { level := .debug
      target := "trierouter::router::core".toList
      message := "Route registered".toList
      fields := [("method".toList, method.name), ("path".toList, pattern)] }

inductive ReportFault where
  | target (text : Text)
  deriving DecidableEq, Repr

def ReportFault.message : ReportFault → String
  | target text => "invalid request target " ++ String.ofList text

def routeLine (method : Method) (pattern : Text) : Text :=
  "route:  ".toList ++ method.name ++ ' ' :: pattern

/-- The line that stands in place of a route. -/
def noRouteLine : Text := "route:  <none>".toList

def bindingLine (p : Param) : Text :=
  "param:  ".toList ++ p.name ++ " = ".toList ++ Quoted.encode p.value

/-- The lines on what a request resolves to. -/
def lookupLines (method : Method) : Lookup Endpoint → List Text
  | .hit endpoint params => routeLine method endpoint.pattern :: params.map bindingLine
  | .miss slash =>
      noRouteLine :: if slash then ["hint:   trailing slash redirect available".toList] else []

/-- The lines on how a request is answered. -/
def responseLines (response : Response) : List Text :=
  ("status: ".toList ++ Nat.toDigits 10 response.status) ::
    [Header.location, Header.allow].filterMap fun name =>
      (response.headers.visible? name).map fun value => name ++ ": ".toList ++ value

/-- The lines on a request without headers and body and on the answer to it. -/
def reportLines (router : Router) (method : Method) (target : Target) (response : Response) :
    List Text :=
  lookupLines method (router.lookup method target.path) ++ responseLines response

/-- The report on a request without headers and body: its route, its bindings and the answer. -/
def report (router : Router) (method : Method) (target : Text) :
    Run (Except ReportFault Text) :=
  match Target.ofText? target with
  | none => pure (.error (.target target))
  | some parsed => do
      let response ← router.serve ⟨method, parsed, [], [], none⟩
      return .ok (Text.joinWith '\n' (reportLines router method parsed response))

end RadixRouter.Demo
