import RadixRouter.Net.Address

/-!
The network as a server sees it: where it may listen, and whether a client gets through to it.
-/

namespace RadixRouter

/-- What the machine's network allows. -/
structure Network where
  /-- Whether a server can listen at an address. -/
  binds : SocketAddress → Bool
  /-- Whether a client on the machine reaches a server at an address. -/
  connects : SocketAddress → Bool

namespace Network

/-- A machine cut off from itself: a server may listen anywhere, and no client ever reaches it. -/
def isolated : Network :=
  ⟨fun _ => true, fun _ => false⟩

end Network

/-- Why a server does not run. -/
inductive ServerFault where
  | binding (address : SocketAddress)
  | notReady
  deriving DecidableEq

def ServerFault.message : ServerFault → String
  | binding address => "binding " ++ String.ofList address.write
  | notReady => "server not ready"

namespace Network

/-- Waits until a client reaches the server at an address. -/
def awaitReady (network : Network) (address : SocketAddress) : Except ServerFault Unit :=
  if network.connects address then .ok () else .error .notReady

end Network

end RadixRouter
