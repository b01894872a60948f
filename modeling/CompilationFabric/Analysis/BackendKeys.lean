import CompilationFabric.Analysis.BackendRuns

/-!
# The backend in a key

`makeTc` translates the planned backend into key fields, and it has one translation for
`cuda-nvrtc` and `cuda-nvcc`.  So a key tells CUDA from the CPU and nothing more: two requests for
CUDA that agree in every encoded field have one key, whichever of the two compilers they name.  The
offline preference is not encoded either, and it has an artifact of `cuda-nvcc` built for a plan of
`cuda-nvrtc`, which the cache then serves.
-/

set_option autoImplicit false

namespace CompilationFabric.Analysis

open CompilationFabric.Library.TransitionSystem
open CompilationFabric.Model
open CompilationFabric.Interface

variable {H : Bytes → Digest} {q : Process} {r r₁ r₂ : CompilationRequest} {n : UInt64}
  {now : Int64} {p p₁ p₂ : CompilationPlan}

/-! ## Which backend a key tells -/

end CompilationFabric.Analysis
