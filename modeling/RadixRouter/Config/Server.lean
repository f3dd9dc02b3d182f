import RadixRouter.Config.Environment
import RadixRouter.Net.Address
import RadixRouter.Text.Decimal

/-!
The settings of the server: where it listens, how many workers it has, and how long a body may be.
-/

namespace RadixRouter

structure ServerConfig where
  address : SocketAddress
  /-- The number of workers, or as many as the machine runs at once. -/
  workers : Option Nat
  /-- The longest body in bytes, a machine word. -/
  maxBodyBytes : UInt64
  deriving DecidableEq

/-- Why the server has no settings: the text that is no address. -/
structure AddressFault where
  text : Text
  deriving DecidableEq, Repr

def AddressFault.message (fault : AddressFault) : String :=
  "TRIEROUTER_ADDR is not a socket address: " ++ String.ofList fault.text

namespace ServerConfig

/-- Where the server listens unless it is told otherwise. -/
def defaultAddress : Text := "127.0.0.1:8080".toList

/-- How long a body may be unless it is said otherwise. -/
def defaultMaxBodyBytes : Nat := 1024 * 1024

/-- A number among the program's variables, with blanks around it or without. -/
def number? (environment : Environment) (name : String) : Option Nat :=
  (environment.setting? name).bind fun text => Decimal.word? (Text.trim text)

/-- The settings that the environment gives. A bad address is a fault; a bad number, or no worker
at all, is as good as none. -/
def ofEnvironment (environment : Environment) : Except AddressFault ServerConfig :=
  let text := (environment.setting? "ADDR").getD defaultAddress
  match SocketAddress.ofText? (Text.trim text) with
  | none => .error ⟨text⟩
  | some address =>
      .ok
        { address := address
          workers := (number? environment "WORKERS").filter (0 < ·)
          maxBodyBytes :=
            ((number? environment "MAX_BODY_BYTES").getD defaultMaxBodyBytes).toUInt64 }

end ServerConfig

end RadixRouter
