import RadixRouter.Command.Run
import RadixRouter.Handler.Stock
import RadixRouter.Main
import RadixRouter.Path.Clean
import RadixRouter.Path.Scan
import RadixRouter.Pattern.Grammar
import RadixRouter.Pattern.Scan
import RadixRouter.Pattern.Token
import RadixRouter.Router.History
import RadixRouter.Router.Call
import RadixRouter.Router.Inspect
import RadixRouter.Server.Adapter
import RadixRouter.Tree.History
import RadixRouter.Tree.Layout
import RadixRouter.Tree.Walk
import RadixRouter.Yaml.Character
import RadixRouter.Yaml.Scalar
import RadixRouter.Logging.ValuePattern
import RadixRouter.Proofs.Pattern.Follows
import RadixRouter.Proofs.Pattern.Grammar
import RadixRouter.Proofs.Text.Shared
import RadixRouter.Proofs.Text.Split
import RadixRouter.Proofs.Path.Clean
import RadixRouter.Proofs.Path.Scan
import RadixRouter.Proofs.Path.Canonical
import RadixRouter.Proofs.Tree.Sound
import RadixRouter.Proofs.Tree.First
import RadixRouter.Proofs.Tree.Graft
import RadixRouter.Proofs.Tree.Insert
import RadixRouter.Proofs.Tree.History
import RadixRouter.Proofs.Tree.Verdict
import RadixRouter.Proofs.Tree.Conflict
import RadixRouter.Proofs.Pattern.Match
import RadixRouter.Proofs.Pattern.Clash
import RadixRouter.Proofs.Pattern.Fill
import RadixRouter.Proofs.Tree.Lookup
import RadixRouter.Proofs.Tree.Resolution
import RadixRouter.Proofs.Tree.Layout
import RadixRouter.Proofs.Tree.Hint
import RadixRouter.Proofs.Tree.Walk
import RadixRouter.Proofs.Text.Fold
import RadixRouter.Proofs.Tree.Repair
import RadixRouter.Proofs.Tree.Recut
import RadixRouter.Proofs.Tree.Respell
import RadixRouter.Proofs.Tree.Keep
import RadixRouter.Proofs.Tree.Patterns
import RadixRouter.Proofs.Tree.Order
import RadixRouter.Proofs.Text.Percent
import RadixRouter.Proofs.Text.Quoted
import RadixRouter.Proofs.Http.Location
import RadixRouter.Proofs.Router.History
import RadixRouter.Proofs.Run
import RadixRouter.Proofs.Handler.Call
import RadixRouter.Proofs.Router.Dispatch
import RadixRouter.Proofs.Router.Redirect
import RadixRouter.Proofs.Router.Origin
import RadixRouter.Proofs.Router.FixedPath
import RadixRouter.Proofs.Router.Allowed
import RadixRouter.Proofs.Router.Refusal
import RadixRouter.Proofs.Router.Policy
import RadixRouter.Proofs.Router.Addition
import RadixRouter.Proofs.Router.Routes
import RadixRouter.Proofs.Router.Report
import RadixRouter.Proofs.Router.Files
import RadixRouter.Proofs.Server.Intake
import RadixRouter.Proofs.Files.Directory
import RadixRouter.Proofs.Tree.Live
import RadixRouter.Proofs.Router.Encoding
import RadixRouter.Proofs.Router.Offer
import RadixRouter.Proofs.Text.Html
import RadixRouter.Proofs.Router.Page
import RadixRouter.Proofs.Pattern.Scan
import RadixRouter.Proofs.Tree.Admission
import RadixRouter.Proofs.Tree.Noted
import RadixRouter.Proofs.Tree.Naming
import RadixRouter.Proofs.Tree.Tie
import RadixRouter.Proofs.Tree.Listing
import RadixRouter.Text.Boundary
import RadixRouter.Tree.Record
import RadixRouter.Proofs.Text.Boundary
import RadixRouter.Proofs.Tree.Record
import RadixRouter.Proofs.Tree.Children
import RadixRouter.Proofs.Tree.Descend
import RadixRouter.Proofs.Tree.Arrival
import RadixRouter.Proofs.Tree.Edge
