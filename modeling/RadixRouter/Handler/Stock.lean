import RadixRouter.Router.Files

/-!
Ready-made handlers, pre-handlers and file systems. The handlers note their calls.
-/

namespace RadixRouter.Stock

def showParams (params : Params) : Text :=
  List.intercalate [';'] (params.map fun p => p.name ++ '=' :: p.value)

/-- The matched pattern, or a dash. -/
def showRoute (context : Context) : Text :=
  context.route.getD ['-']

/-- Notes who was called, for which route and with which bindings. -/
def noteCall (label : Text) (params : Params) (context : Context) : Run Unit :=
  Run.note (label ++ ' ' :: showRoute context ++ " [".toList ++ showParams params ++ [']'])

def noting (label : Text) (handler : Handler) : Handler := fun request params context => do
  noteCall label params context
  handler request params context

def answerText (text : Text) : Run Response :=
  pure (.ok (Text.utf8 text))

/-- Answers with the route and the bindings. -/
def echo : Handler := fun _ params context =>
  answerText (showRoute context ++ '|' :: showParams params)

/-- Answers with all that a handler learns. -/
def info : Handler := fun request params context =>
  let remote := match context.remote with
    | some address => address.ip.write
    | none => ['-']
  let front := List.flatten
    ["method=".toList, request.method.name, "\npath=".toList, request.target.path,
      "\nquery=".toList, request.target.query.getD ['-'], "\nroute=".toList, showRoute context,
      "\nparams=".toList, showParams params, "\nbody=".toList]
  let back := List.flatten
    ["\nid=".toList, context.requestId.write, "\nremote=".toList, remote]
  pure (.ok (Text.utf8 front ++ request.body ++ Text.utf8 back))

def first : Handler := fun _ params _ =>
  match Params.at? params 0 with
  | some value => answerText value
  | none => Run.panic (.text "index out of bounds: the len is 0 but the index is 0".toList)

def param (name : Text) : Handler := fun _ params _ =>
  answerText ((Params.get? params name).getD "<none>".toList)

def fixed (response : Response) : Handler := fun _ _ _ =>
  pure response

def panicking (cause : Panic) : Handler := fun _ _ _ =>
  Run.panic cause

/-- Lets every request through. -/
def pass : PreHandler := fun _ _ _ =>
  pure none

/-- Answers every request that fails the test. -/
def requiring (test : Request → Params → Bool) (response : Response) : PreHandler :=
  fun request params _ => pure (if test request params then none else some response)

def hasHeader (name : Text) (request : Request) (_ : Params) : Bool :=
  (request.headers.get? (Text.lowerAscii name)).isSome

def hasQuery (query : Text) (request : Request) (_ : Params) : Bool :=
  request.target.query = some query

def hasParam (name value : Text) (_ : Request) (params : Params) : Bool :=
  Params.get? params name = some value

def notingPre (preHandler : PreHandler) : PreHandler := fun request params context => do
  noteCall "pre".toList params context
  preHandler request params context

/-- Answers panics with the path and the text of the panic. -/
def panicReport : PanicHandler := fun request cause => do
  Run.note "panic_handler".toList
  return ⟨500, [], Text.utf8 (request.target.path ++ " failed: ".toList ++ cause.message)⟩

/-- Files held in memory by their exact names. -/
def memoryFiles (files : List (Text × Except FileFault FileContent)) : FileSystem := fun name =>
  pure (((files.find? (·.1 = name)).map Prod.snd).getD (.error .notFound))

end RadixRouter.Stock
