import CompilationFabric.Model.FabricSystem

/-!
# The commands that look an artifact up by its request

`lookup`, `invalidate` and `explain` of the command line plan the request and derive a key of
their own from it, with a toolchain context that only names a compiler and a backend.
-/

set_option autoImplicit false

namespace CompilationFabric.Model

/-- SOURCE: main.cpp:123-125 -/
def cliContext : KeyToolchainContext := { compiler := ascii "cf-cpu", backend := cpuBackend }

/-- SOURCE: main.cpp:123-125 -/
def cliKey (r : CompilationRequest) (p : CompilationPlan) : CompilationKey :=
  buildCompilationKey r p cliContext

/-- What `explain` says of the artifact under a key, next to the fields of the key: its state,
the id of its backend, its validation and its deployment.
SOURCE: Fabric.cpp:647-654 -/
def World.explained (w : World) (key : CompilationKey) :
    Option (Bytes × Bytes × ValidationDescriptor × DeploymentDescriptor) :=
  (w.impl.cache[key]?).map fun e =>
    (e.descriptor.state, e.descriptor.backend.id, e.descriptor.validation, e.descriptor.deployment)

end CompilationFabric.Model
