import CompilationFabric.Model.Core

/-!
# The semantic vocabulary

The enumerations of `Semantic.hpp` with the two name tables each of them has in
`Semantic.cpp`, and the two of `Descriptor.cpp`.

The nine enumerations of `Semantic.cpp` print through `NAME_CASE(x)`, which returns
`#x`: the macro argument as it is spelled, qualifier and `::` included.  Their parsers
compare with the bare enumerator.  No printed name is in its parser's table, because
every printed name has a colon in it and no table entry does (`lookup_eq_none`).  The
two enumerations of `Descriptor.cpp` spell both sides out and do agree.
-/

set_option autoImplicit false

namespace CompilationFabric.Model

/-- The `LOOKUP` macro: the value of the first pair whose text is `s`.
SOURCE: Semantic.cpp:8 -/
def lookup {α : Type} (arr : List (String × α)) (s : Bytes) : Option α :=
  (arr.find? fun p => ascii p.1 == s).map Prod.snd

/-- A text with a colon in it is in no table whose entries have none. -/
theorem lookup_eq_none {α : Type} {arr : List (String × α)} {s : Bytes}
    (harr : ∀ p ∈ arr, colon ∉ ascii p.1) (hs : colon ∈ s) : lookup arr s = none := by
  have hfind : arr.find? (fun p => ascii p.1 == s) = none := by
    rw [List.find?_eq_none]
    intro p hp heq
    have hps : ascii p.1 = s := by simpa using heq
    exact harr p hp (hps ▸ hs)
  rw [lookup, hfind]
  rfl

/-! ## The enumerations of `Semantic.cpp` -/

inductive Datatype where
  | None | F32 | F64 | F16 | BF16 | TF32 | I8 | I16 | I32 | I64 | U8 | U16 | U32 | U64
  | Bool | INT4 | UINT4 | FP8_E4M3 | FP8_E5M2 | F8E5M2 | F8E4M3
  deriving DecidableEq, Repr

/-- SOURCE: Semantic.cpp:10-17 -/
def datatypeName : Datatype → Bytes
  | .None => ascii "Datatype::None" | .F32 => ascii "Datatype::F32"
  | .F64 => ascii "Datatype::F64" | .F16 => ascii "Datatype::F16"
  | .BF16 => ascii "Datatype::BF16" | .TF32 => ascii "Datatype::TF32"
  | .I8 => ascii "Datatype::I8" | .I16 => ascii "Datatype::I16"
  | .I32 => ascii "Datatype::I32" | .I64 => ascii "Datatype::I64"
  | .U8 => ascii "Datatype::U8" | .U16 => ascii "Datatype::U16"
  | .U32 => ascii "Datatype::U32" | .U64 => ascii "Datatype::U64"
  | .Bool => ascii "Datatype::Bool" | .INT4 => ascii "Datatype::INT4"
  | .UINT4 => ascii "Datatype::UINT4" | .FP8_E4M3 => ascii "Datatype::FP8_E4M3"
  | .FP8_E5M2 => ascii "Datatype::FP8_E5M2" | .F8E5M2 => ascii "Datatype::F8E5M2"
  | .F8E4M3 => ascii "Datatype::F8E4M3"

/-- SOURCE: Semantic.cpp:18-26 -/
def datatypeFromName : Bytes → Option Datatype :=
  lookup [("None", .None), ("F32", .F32), ("F64", .F64), ("F16", .F16), ("BF16", .BF16),
    ("TF32", .TF32), ("I8", .I8), ("I16", .I16), ("I32", .I32), ("I64", .I64),
    ("U8", .U8), ("U16", .U16), ("U32", .U32), ("U64", .U64), ("Bool", .Bool),
    ("INT4", .INT4), ("UINT4", .UINT4), ("FP8_E4M3", .FP8_E4M3), ("FP8_E5M2", .FP8_E5M2),
    ("F8E5M2", .F8E5M2), ("F8E4M3", .F8E4M3)]

/-- No printed name is in the table: it is qualified there and plain here. -/
@[simp] theorem datatypeFromName_datatypeName (d : Datatype) :
    datatypeFromName (datatypeName d) = none :=
  lookup_eq_none (by decide +kernel) (by cases d <;> decide +kernel)

inductive Layout where
  | None | RowMajor | ColMajor | NCHW | NHWC | Blocked | Planar | Interleaved
  deriving DecidableEq, Repr

/-- SOURCE: Semantic.cpp:28-32 -/
def layoutName : Layout → Bytes
  | .None => ascii "Layout::None" | .RowMajor => ascii "Layout::RowMajor"
  | .ColMajor => ascii "Layout::ColMajor" | .NCHW => ascii "Layout::NCHW"
  | .NHWC => ascii "Layout::NHWC" | .Blocked => ascii "Layout::Blocked"
  | .Planar => ascii "Layout::Planar" | .Interleaved => ascii "Layout::Interleaved"

/-- SOURCE: Semantic.cpp:33-38 -/
def layoutFromName : Bytes → Option Layout :=
  lookup [("None", .None), ("RowMajor", .RowMajor), ("ColMajor", .ColMajor),
    ("NCHW", .NCHW), ("NHWC", .NHWC), ("Blocked", .Blocked), ("Planar", .Planar),
    ("Interleaved", .Interleaved)]

/-- No printed name is in the table. -/
@[simp] theorem layoutFromName_layoutName (l : Layout) :
    layoutFromName (layoutName l) = none :=
  lookup_eq_none (by decide +kernel) (by cases l <;> decide +kernel)

inductive QuantizationMode where
  | None | Int8 | Int4 | FP8 | DynamicInt | DynamicFP8
  deriving DecidableEq, Repr

/-- SOURCE: Semantic.cpp:40-44 -/
def quantizationName : QuantizationMode → Bytes
  | .None => ascii "QuantizationMode::None" | .Int8 => ascii "QuantizationMode::Int8"
  | .Int4 => ascii "QuantizationMode::Int4" | .FP8 => ascii "QuantizationMode::FP8"
  | .DynamicInt => ascii "QuantizationMode::DynamicInt"
  | .DynamicFP8 => ascii "QuantizationMode::DynamicFP8"

/-- SOURCE: Semantic.cpp:45-50 -/
def quantizationFromName : Bytes → Option QuantizationMode :=
  lookup [("None", .None), ("Int8", .Int8), ("Int4", .Int4), ("FP8", .FP8),
    ("DynamicInt", .DynamicInt), ("DynamicFP8", .DynamicFP8)]

/-- No printed name is in the table. -/
@[simp] theorem quantizationFromName_quantizationName (q : QuantizationMode) :
    quantizationFromName (quantizationName q) = none :=
  lookup_eq_none (by decide +kernel) (by cases q <;> decide +kernel)

inductive PrecisionMode where
  | None | Full | Reduced | TF32 | FP16 | BF16 | Mixed
  deriving DecidableEq, Repr

/-- SOURCE: Semantic.cpp:52-56 -/
def precisionName : PrecisionMode → Bytes
  | .None => ascii "PrecisionMode::None" | .Full => ascii "PrecisionMode::Full"
  | .Reduced => ascii "PrecisionMode::Reduced" | .TF32 => ascii "PrecisionMode::TF32"
  | .FP16 => ascii "PrecisionMode::FP16" | .BF16 => ascii "PrecisionMode::BF16"
  | .Mixed => ascii "PrecisionMode::Mixed"

/-- SOURCE: Semantic.cpp:57-62 -/
def precisionFromName : Bytes → Option PrecisionMode :=
  lookup [("None", .None), ("Full", .Full), ("Reduced", .Reduced), ("TF32", .TF32),
    ("FP16", .FP16), ("BF16", .BF16), ("Mixed", .Mixed)]

/-- No printed name is in the table. -/
@[simp] theorem precisionFromName_precisionName (p : PrecisionMode) :
    precisionFromName (precisionName p) = none :=
  lookup_eq_none (by decide +kernel) (by cases p <;> decide +kernel)

inductive DeterminismMode where
  | Unspecified | Deterministic | Stochastic
  deriving DecidableEq, Repr

/-- SOURCE: Semantic.cpp:64-67 -/
def determinismName : DeterminismMode → Bytes
  | .Unspecified => ascii "DeterminismMode::Unspecified"
  | .Deterministic => ascii "DeterminismMode::Deterministic"
  | .Stochastic => ascii "DeterminismMode::Stochastic"

/-- SOURCE: Semantic.cpp:68-72 -/
def determinismFromName : Bytes → Option DeterminismMode :=
  lookup [("Unspecified", .Unspecified), ("Deterministic", .Deterministic),
    ("Stochastic", .Stochastic)]

/-- No printed name is in the table. -/
@[simp] theorem determinismFromName_determinismName (d : DeterminismMode) :
    determinismFromName (determinismName d) = none :=
  lookup_eq_none (by decide +kernel) (by cases d <;> decide +kernel)

inductive ReproducibilityMode where
  | Unspecified | BestEffort | Strict
  deriving DecidableEq, Repr

/-- SOURCE: Semantic.cpp:74-77 -/
def reproducibilityName : ReproducibilityMode → Bytes
  | .Unspecified => ascii "ReproducibilityMode::Unspecified"
  | .BestEffort => ascii "ReproducibilityMode::BestEffort"
  | .Strict => ascii "ReproducibilityMode::Strict"

/-- SOURCE: Semantic.cpp:78-82 -/
def reproducibilityFromName : Bytes → Option ReproducibilityMode :=
  lookup [("Unspecified", .Unspecified), ("BestEffort", .BestEffort), ("Strict", .Strict)]

/-- No printed name is in the table. -/
@[simp] theorem reproducibilityFromName_reproducibilityName (r : ReproducibilityMode) :
    reproducibilityFromName (reproducibilityName r) = none :=
  lookup_eq_none (by decide +kernel) (by cases r <;> decide +kernel)

inductive DebugReleaseMode where
  | Debug | Release | RelWithDebInfo | MinSizeRel
  deriving DecidableEq, Repr

/-- SOURCE: Semantic.cpp:84-88 -/
def debugReleaseName : DebugReleaseMode → Bytes
  | .Debug => ascii "DebugReleaseMode::Debug" | .Release => ascii "DebugReleaseMode::Release"
  | .RelWithDebInfo => ascii "DebugReleaseMode::RelWithDebInfo"
  | .MinSizeRel => ascii "DebugReleaseMode::MinSizeRel"

/-- SOURCE: Semantic.cpp:89-94 -/
def debugReleaseFromName : Bytes → Option DebugReleaseMode :=
  lookup [("Debug", .Debug), ("Release", .Release), ("RelWithDebInfo", .RelWithDebInfo),
    ("MinSizeRel", .MinSizeRel)]

/-- No printed name is in the table. -/
@[simp] theorem debugReleaseFromName_debugReleaseName (d : DebugReleaseMode) :
    debugReleaseFromName (debugReleaseName d) = none :=
  lookup_eq_none (by decide +kernel) (by cases d <;> decide +kernel)

inductive AcceleratorVendor where
  | Unknown | Nvidia | AMD | Intel | CPU | Custom
  deriving DecidableEq, Repr

/-- SOURCE: Semantic.cpp:96-100 -/
def vendorName : AcceleratorVendor → Bytes
  | .Unknown => ascii "AcceleratorVendor::Unknown" | .Nvidia => ascii "AcceleratorVendor::Nvidia"
  | .AMD => ascii "AcceleratorVendor::AMD" | .Intel => ascii "AcceleratorVendor::Intel"
  | .CPU => ascii "AcceleratorVendor::CPU" | .Custom => ascii "AcceleratorVendor::Custom"

/-- SOURCE: Semantic.cpp:101-106 -/
def vendorFromName : Bytes → Option AcceleratorVendor :=
  lookup [("Unknown", .Unknown), ("Nvidia", .Nvidia), ("AMD", .AMD), ("Intel", .Intel),
    ("CPU", .CPU), ("Custom", .Custom)]

/-- No printed name is in the table. -/
@[simp] theorem vendorFromName_vendorName (v : AcceleratorVendor) :
    vendorFromName (vendorName v) = none :=
  lookup_eq_none (by decide +kernel) (by cases v <;> decide +kernel)

inductive AcceleratorFamily where
  | Unknown | NvidiaCUDA | NvidiaBlackwell | NvidiaHopper | NvidiaAmpere | AMD_HIP
  | IntelOneAPI | X86_64 | Arm64 | Generic
  deriving DecidableEq, Repr

/-- SOURCE: Semantic.cpp:108-114 -/
def familyName : AcceleratorFamily → Bytes
  | .Unknown => ascii "AcceleratorFamily::Unknown"
  | .NvidiaCUDA => ascii "AcceleratorFamily::NvidiaCUDA"
  | .NvidiaBlackwell => ascii "AcceleratorFamily::NvidiaBlackwell"
  | .NvidiaHopper => ascii "AcceleratorFamily::NvidiaHopper"
  | .NvidiaAmpere => ascii "AcceleratorFamily::NvidiaAmpere"
  | .AMD_HIP => ascii "AcceleratorFamily::AMD_HIP"
  | .IntelOneAPI => ascii "AcceleratorFamily::IntelOneAPI"
  | .X86_64 => ascii "AcceleratorFamily::X86_64" | .Arm64 => ascii "AcceleratorFamily::Arm64"
  | .Generic => ascii "AcceleratorFamily::Generic"

/-- SOURCE: Semantic.cpp:115-121 -/
def familyFromName : Bytes → Option AcceleratorFamily :=
  lookup [("Unknown", .Unknown), ("NvidiaCUDA", .NvidiaCUDA),
    ("NvidiaBlackwell", .NvidiaBlackwell), ("NvidiaHopper", .NvidiaHopper),
    ("NvidiaAmpere", .NvidiaAmpere), ("AMD_HIP", .AMD_HIP), ("IntelOneAPI", .IntelOneAPI),
    ("X86_64", .X86_64), ("Arm64", .Arm64), ("Generic", .Generic)]

/-- No printed name is in the table. -/
@[simp] theorem familyFromName_familyName (f : AcceleratorFamily) :
    familyFromName (familyName f) = none :=
  lookup_eq_none (by decide +kernel) (by cases f <;> decide +kernel)

/-! ## The enumerations of `Descriptor.cpp` -/

inductive ArtifactFormat where
  | Unknown | Executable | Object | StaticLibrary | SharedLibrary | PTX | CUBIN | Fatbinary
  | Bytecode | IR | Source | Graph | KernelImage | Operational
  deriving DecidableEq, Repr

/-- SOURCE: Descriptor.cpp:7-25 -/
def artifactFormatName : ArtifactFormat → Bytes
  | .Unknown => ascii "Unknown" | .Executable => ascii "Executable"
  | .Object => ascii "Object" | .StaticLibrary => ascii "StaticLibrary"
  | .SharedLibrary => ascii "SharedLibrary" | .PTX => ascii "PTX" | .CUBIN => ascii "CUBIN"
  | .Fatbinary => ascii "Fatbinary" | .Bytecode => ascii "Bytecode" | .IR => ascii "IR"
  | .Source => ascii "Source" | .Graph => ascii "Graph"
  | .KernelImage => ascii "KernelImage" | .Operational => ascii "Operational"

/-- SOURCE: Descriptor.cpp:26-35 -/
def artifactFormatFromName : Bytes → Option ArtifactFormat :=
  lookup [("Unknown", .Unknown), ("Executable", .Executable), ("Object", .Object),
    ("StaticLibrary", .StaticLibrary), ("SharedLibrary", .SharedLibrary), ("PTX", .PTX),
    ("CUBIN", .CUBIN), ("Fatbinary", .Fatbinary), ("Bytecode", .Bytecode), ("IR", .IR),
    ("Source", .Source), ("Graph", .Graph), ("KernelImage", .KernelImage),
    ("Operational", .Operational)]

/-- The names of formats are read back. -/
@[simp] theorem artifactFormatFromName_artifactFormatName (f : ArtifactFormat) :
    artifactFormatFromName (artifactFormatName f) = some f := by
  cases f <;> rfl

inductive StageKind where
  | Normalize | Lower | Optimize | Codegen | Assemble | Link | Validate | Persist | Deploy
  | Skip | NotApplicable
  deriving DecidableEq, Repr

/-! ## Underlying bytes -/

/-- `static_cast<uint8_t>` of a `Datatype`. -/
def Datatype.toUInt8 (x : Datatype) : UInt8 := UInt8.ofNat x.ctorIdx

/-- Different datatypes have different bytes. -/
theorem Datatype.toUInt8_injective : Function.Injective Datatype.toUInt8 :=
  Function.LeftInverse.injective (g := fun b => Datatype.ofNat b.toNat) fun x => by cases x <;> rfl

/-- `static_cast<uint8_t>` of a `Layout`. -/
def Layout.toUInt8 (x : Layout) : UInt8 := UInt8.ofNat x.ctorIdx

/-- Different layouts have different bytes. -/
theorem Layout.toUInt8_injective : Function.Injective Layout.toUInt8 :=
  Function.LeftInverse.injective (g := fun b => Layout.ofNat b.toNat) fun x => by cases x <;> rfl

/-- `static_cast<uint8_t>` of a `QuantizationMode`. -/
def QuantizationMode.toUInt8 (x : QuantizationMode) : UInt8 := UInt8.ofNat x.ctorIdx

/-- Different modes have different bytes. -/
theorem QuantizationMode.toUInt8_injective : Function.Injective QuantizationMode.toUInt8 :=
  Function.LeftInverse.injective (g := fun b => QuantizationMode.ofNat b.toNat) fun x => by cases x <;> rfl

/-- `static_cast<uint8_t>` of a `PrecisionMode`. -/
def PrecisionMode.toUInt8 (x : PrecisionMode) : UInt8 := UInt8.ofNat x.ctorIdx

/-- Different modes have different bytes. -/
theorem PrecisionMode.toUInt8_injective : Function.Injective PrecisionMode.toUInt8 :=
  Function.LeftInverse.injective (g := fun b => PrecisionMode.ofNat b.toNat) fun x => by cases x <;> rfl

/-- `static_cast<uint8_t>` of a `DeterminismMode`. -/
def DeterminismMode.toUInt8 (x : DeterminismMode) : UInt8 := UInt8.ofNat x.ctorIdx

/-- Different modes have different bytes. -/
theorem DeterminismMode.toUInt8_injective : Function.Injective DeterminismMode.toUInt8 :=
  Function.LeftInverse.injective (g := fun b => DeterminismMode.ofNat b.toNat) fun x => by cases x <;> rfl

/-- `static_cast<uint8_t>` of a `ReproducibilityMode`. -/
def ReproducibilityMode.toUInt8 (x : ReproducibilityMode) : UInt8 := UInt8.ofNat x.ctorIdx

/-- Different modes have different bytes. -/
theorem ReproducibilityMode.toUInt8_injective : Function.Injective ReproducibilityMode.toUInt8 :=
  Function.LeftInverse.injective (g := fun b => ReproducibilityMode.ofNat b.toNat) fun x => by cases x <;> rfl

/-- `static_cast<uint8_t>` of a `DebugReleaseMode`. -/
def DebugReleaseMode.toUInt8 (x : DebugReleaseMode) : UInt8 := UInt8.ofNat x.ctorIdx

/-- Different modes have different bytes. -/
theorem DebugReleaseMode.toUInt8_injective : Function.Injective DebugReleaseMode.toUInt8 :=
  Function.LeftInverse.injective (g := fun b => DebugReleaseMode.ofNat b.toNat) fun x => by cases x <;> rfl

/-- `static_cast<uint8_t>` of a `AcceleratorVendor`. -/
def AcceleratorVendor.toUInt8 (x : AcceleratorVendor) : UInt8 := UInt8.ofNat x.ctorIdx

/-- Different vendors have different bytes. -/
theorem AcceleratorVendor.toUInt8_injective : Function.Injective AcceleratorVendor.toUInt8 :=
  Function.LeftInverse.injective (g := fun b => AcceleratorVendor.ofNat b.toNat) fun x => by cases x <;> rfl

/-- `static_cast<uint8_t>` of a `AcceleratorFamily`. -/
def AcceleratorFamily.toUInt8 (x : AcceleratorFamily) : UInt8 := UInt8.ofNat x.ctorIdx

/-- Different families have different bytes. -/
theorem AcceleratorFamily.toUInt8_injective : Function.Injective AcceleratorFamily.toUInt8 :=
  Function.LeftInverse.injective (g := fun b => AcceleratorFamily.ofNat b.toNat) fun x => by cases x <;> rfl

end CompilationFabric.Model
