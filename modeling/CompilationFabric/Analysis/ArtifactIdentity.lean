import CompilationFabric.Interface.FabricIdentities
import CompilationFabric.Interface.FabricProgress
import CompilationFabric.Interface.FabricStore

/-!
# Artifact identities

Whether the identity of a new artifact is ever that of another one.  Within a process the
artifact counter sees to it.  But the counter starts at zero in every process, and nothing moves
it past the identities that are in the store or that `recover` has put into the cache; so the
second process gives out the identities of the first once more, and its stores write over the
first one's files.  As long as no call draws a number that is in use, nothing of the kind happens.
-/

set_option autoImplicit false

namespace CompilationFabric.Analysis

open CompilationFabric.Library.TransitionSystem
open CompilationFabric.Model
open CompilationFabric.Interface

variable {H : Bytes → Digest} {w w' : World} {e : Event} {es : List Event}

/-! ## The property -/

end CompilationFabric.Analysis
