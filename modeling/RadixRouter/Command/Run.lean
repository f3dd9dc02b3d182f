import RadixRouter.Command.Line
import RadixRouter.Config.Load
import RadixRouter.Config.Server
import RadixRouter.Demo
import RadixRouter.Logging.Config
import RadixRouter.Server.Network

/-!
The commands carried out. What a command needs of the machine is in a `Host`; what it leaves
behind is an `Outcome`.
-/

namespace RadixRouter

/-- What a command finds on the machine. -/
structure Host where
  environment : Environment
  /-- The working directory. -/
  directory : Directory
  network : Network

inductive CommandFault where
  | load (fault : LoadFault)
  | address (fault : AddressFault)
  | method (text : Text)
  | report (fault : Demo.ReportFault)
  | server (fault : ServerFault)

def CommandFault.message : CommandFault → String
  | load fault => fault.message
  | address fault => fault.message
  | method text => "invalid method " ++ String.ofList text
  | report fault => fault.message
  | server fault => fault.message

inductive Outcome where
  /-- With this text on the standard output. -/
  | printed (text : Text)
  /-- With this fault. -/
  | failed (fault : CommandFault)
  /-- By serving for good. -/
  | serving
  /-- By breaking down before anything is done. -/
  | broken

namespace Host

/-- The switches from a file if there is one, from the environment otherwise. -/
def switches (host : Host) : Option Text → Except LoadFault Switches
  | some path => Switches.load host.directory path
  | none => .ok (Switches.ofEnvironment host.environment)

/-- The files below a directory of the host. -/
def filesBelow (host : Host) (path : Text) : FileSystem :=
  let base := ((host.directory.walk [] (Directory.names path)).getD [path])
  (StaticFiles.mk host.directory base "index.html".toList).fileSystem

/-- The settings of the server, where the options count before the environment. -/
def serverConfig (host : Host) (options : ServeOptions) : Except AddressFault ServerConfig := do
  let config ← ServerConfig.ofEnvironment host.environment
  return { config with
    address := options.address.getD config.address
    workers := (options.workers.map (max 1)) <|> config.workers }

def logConfig (host : Host) (options : ServeOptions) : LogConfig :=
  if options.developmentLogs then .forDevelopment else .ofEnvironment host.environment

/-- An event that tells how far the server has got. -/
def progress (target message : String) (fields : List (String × Text)) : LogEvent :=
  { level := .info
    target := target.toList
    message := message.toList
    fields := fields.map fun (name, value) => (name.toList, value) }

/-- What the server logs once it listens. -/
def startEvents (config : ServerConfig) (router : Router) : List LogEvent :=
  let routes := router.routes
  let summary := (routes.take 10).map fun (method, pattern) => method.name ++ ' ' :: pattern
  let address := config.address.write
  [progress "trierouter::router::core" "Routing table loaded"
    [("routes_count", Decimal.write routes.length),
      ("routes_summary", '[' :: List.intercalate [',', ' '] (summary.map Quoted.encode) ++ [']']),
      ("routing_algorithm", "radix_tree".toList)],
   progress "trierouter::server::http_server" "HTTP server listening"
    [("addr", address), ("workers", (config.workers.map Decimal.write).getD []),
      ("max_body_bytes", Decimal.write config.maxBodyBytes.toNat)],
   progress "trierouter::cli::commands" "Serving demo routes" [("addr", address)]]

/-- Starts to serve once there is a log. The events are all that occur, whether they are logged or
not. -/
def serveLogged (host : Host) (options : ServeOptions) : Outcome × List LogEvent :=
  let warnings := (logConfig host options).warnings
  match serverConfig host options with
  | .error fault => (.failed (.address fault), warnings)
  | .ok config =>
      match switches host options.config with
      | .error fault => (.failed (.load fault), warnings)
      | .ok switches =>
          let files := options.staticDirectory.map (filesBelow host)
          let events := warnings ++ Demo.registrationEvents files
          if host.network.binds config.address then
            (.serving, events ++ startEvents config (Demo.router switches files))
          else (.failed (.server (.binding config.address)), events)

/-- Starts to serve. The events are those that are logged. -/
def serve (host : Host) (options : ServeOptions) : Outcome × List LogEvent :=
  match (logConfig host options).filter host.environment with
  | .error _ => (.broken, [])
  | .ok filter =>
      let (outcome, events) := serveLogged host options
      (outcome, events.filter filter.allows)

/-- Reports on one request. The method may be given in small letters. -/
def lookup (host : Host) (method path : Text) (config : Option Text) : Outcome :=
  match switches host config with
  | .error fault => .failed (.load fault)
  | .ok switches =>
      match Method.ofText? (method.map Char.toUpper) with
      | none => .failed (.method method)
      | some parsed =>
          match (Demo.report (Demo.router switches none) parsed path).outcome.1 with
          | .ok (.ok text) => .printed (text ++ ['\n'])
          | .ok (.error fault) => .failed (.report fault)
          | .error _ => .failed (.report (.target path))

def listing : Text :=
  (Demo.router {} none).routes.flatMap fun (method, pattern) =>
    method.name ++ ' ' :: pattern ++ ['\n']

/-- Carries out a command; with the events that are logged, in the order in which they occur. -/
def run (host : Host) : Command → Outcome × List LogEvent
  | .serve options => serve host options
  | .lookup method path config => (lookup host method path config, [])
  | .routes => (.printed listing, [])

end Host

end RadixRouter
