import CompilationFabric.Analysis.BackendRuns

/-!
# Which backend a request gets

A request may name a backend, and it may ask for CUDA by an architecture or a compute capability.
`plan` rejects a name that is not registered, apart from `cuda-nvcc`; for the rest it decides
between CUDA and the CPU alone.  So a request with the name of a further backend, and a request for
CUDA on a host without it, are planned for the CPU, which accepts every plan that it is given.

A request that is planned for the CUDA backend that it names may still be given the artifact of the
other one: NVRTC with the offline preference has `cuda-nvcc` compile, and neither the preference nor
the name of the compiler is in the key.
-/

set_option autoImplicit false

namespace CompilationFabric.Analysis

open CompilationFabric.Library.TransitionSystem
open CompilationFabric.Model
open CompilationFabric.Interface

variable {H : Bytes → Digest} {h : Host} {config : CompilationFabricConfig} {q : Process}
  {others : CompilationRequest → Prop} {r r' : CompilationRequest} {n : UInt64} {now : Int64}
  {p p' : CompilationPlan}

/-! ## What the planner can serve -/

end CompilationFabric.Analysis
