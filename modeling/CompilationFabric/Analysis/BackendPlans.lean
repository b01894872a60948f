import CompilationFabric.Analysis.KeyInjectivity
import CompilationFabric.Model.FabricSystem

/-!
# The backend in a plan and in a key

`plan` rejects a backend that is not registered, apart from `cuda-nvcc`, and decides between CUDA and
the CPU alone.  `makeTc` translates the planned backend into key fields, and it has one translation
for `cuda-nvrtc` and `cuda-nvcc`.  So a key tells CUDA from the CPU and nothing more: two requests for
CUDA that agree in every encoded field have one key, whichever of the two compilers they name.
-/

set_option autoImplicit false

namespace CompilationFabric.Analysis

open CompilationFabric.Model

variable {h : Host} {config : CompilationFabricConfig} {q : Process}
  {r r₁ r₂ : CompilationRequest} {n : UInt64} {now : Int64} {p p₁ p₂ : CompilationPlan}

/-! ## Planning -/

end CompilationFabric.Analysis
