import CompilationFabric.Library.Positional
import Mathlib.Order.Basic

/-!
# Error codes, results, identities and digests

The vocabulary of `Core.hpp` and `Core.cpp`: the typed error codes every failure
carries, `Result`, the 128-bit identities with their hexadecimal text, and the 32-byte
digest.  A `std::string` and a `std::vector<uint8_t>` are both `Bytes` here: the source
compares, orders, measures and hashes them byte by byte and nothing else.

SHA-256 itself is a parameter of the development.  Whatever needs it takes a function
`H : Bytes → Digest` standing for `Sha256::hash`, so that what a theorem assumes about
the hash is in its statement.
-/

set_option autoImplicit false

namespace CompilationFabric.Model

open CompilationFabric.Library

/-- A byte string: `std::string`, `std::string_view` or `std::vector<uint8_t>`. -/
abbrev Bytes := List UInt8

/-- The bytes of a string literal of the source, all of which are ASCII. -/
def ascii (s : String) : Bytes :=
  s.toByteArray.data.toList

/-- The byte of the character `:`. -/
def colon : UInt8 := 58

/-! ## Error codes and results -/

/-- SOURCE: Core.hpp:25-89 -/
inductive ErrorCode where
  | Ok | InvalidArgument | InvalidSource | UnsupportedIR | CompilerMissing | BackendMissing
  | TargetUnsupported | ArchitectureMismatch | ABIMismatch | DatatypeMismatch | LayoutMismatch
  | ShapeMismatch | QuantizationMismatch | PrecisionMismatch | InvalidSpecialization
  | InvalidKey | MalformedKey | MalformedFrame | ProtocolVersionMismatch | UnknownMessageType
  | FrameTooLarge | TruncatedFrame | StaleEpoch | StaleWorkerBoot | StaleGeneration
  | StaleAttempt | StaleArtifact | DuplicateCompletion | DuplicateRequest | DuplicateAttempt
  | DuplicateArtifact | ObsoleteAttempt | InvalidStateTransition | LifecycleConflict
  | ArtifactCorrupt | ArtifactTruncated | ArtifactInvalid | MetadataCorrupt
  | PersistenceFailure | PersistenceVersionUnknown | TrailingGarbage | PolicyRejected
  | NotDeployable | NotValid | ConcurrentModification | ReentrancyLocked | NoBackend
  | NoToolchain | NotFound | Internal | NotImplemented | ValidationFailed | LoadFailed
  | ExecutionFailed | BuildFailed | Cancelled | IOError | Timeout | GenerationRollback
  | NoActiveUsers | LeaseUnderflow | RaceDetected | OverSizedFrame
  deriving DecidableEq, Repr

/-- What a `Result` that is not ok carries: a code and a message. -/
structure Failure where
  code : ErrorCode
  message : Bytes
  deriving DecidableEq, Repr

/-- `Result<T>`: a value, or a typed failure.
SOURCE: Core.hpp:100-150 -/
abbrev Result (α : Type) := Except Failure α

/-- `Err<T>(code, message)`. -/
def Err {α : Type} (code : ErrorCode) (message : Bytes) : Result α :=
  .error ⟨code, message⟩

/-! ## Hexadecimal text -/

/-- SOURCE: Core.cpp:156 -/
def hexChar (n : UInt8) : UInt8 :=
  if n < 10 then 48 + n else 97 + (n - 10)

/-- The value of a hexadecimal digit of either case; the source's `-1` is `none`.
SOURCE: Core.cpp:157-162 -/
def hexVal (c : UInt8) : Option UInt8 :=
  if 48 ≤ c ∧ c ≤ 57 then some (c - 48)
  else if 97 ≤ c ∧ c ≤ 102 then some (c - 97 + 10)
  else if 65 ≤ c ∧ c ≤ 70 then some (c - 65 + 10)
  else none

/-- A hex digit is read back. -/
theorem hexVal_hexChar {n : UInt8} (h : n < 16) : hexVal (hexChar n) = some n := by
  have hall : ∀ m : Fin 16, hexVal (hexChar (UInt8.ofNat m)) = some (UInt8.ofNat m) := by
    decide
  have hn := hall ⟨n.toNat, h⟩
  simpa using hn

/-! ## 128-bit identities -/

/-- SOURCE: Core.hpp:156-172 -/
structure Id128 where
  hi : UInt64 := 0
  lo : UInt64 := 0
  deriving DecidableEq, Repr

/-- `Id128::fromU64`. -/
def Id128.fromU64 (v : UInt64) : Id128 := ⟨0, v⟩

/-- The last `k` digits of a word, printed from shift `4 * (k - 1)` down to shift `0`. -/
def wordDigits (w : UInt64) : ℕ → Bytes
  | 0 => []
  | k + 1 => hexChar ((w >>> UInt64.ofNat (4 * k)) &&& 0xF).toUInt8 :: wordDigits w k

/-- All sixteen digits of a word: `for (int shift = 60; shift >= 0; shift -= 4)`. -/
def wordToHex (w : UInt64) : Bytes := wordDigits w 16

/-- SOURCE: Core.cpp:177-183 -/
def Id128.toHex (v : Id128) : Bytes :=
  wordToHex v.hi ++ wordToHex v.lo

/-- One step of the parsing loop: `d = (d << 4) | v`. -/
def pushNibble (d : UInt64) (c : UInt8) : Option UInt64 :=
  (hexVal c).map fun v => (d <<< 4) ||| v.toUInt64

/-- SOURCE: Core.cpp:165-175 -/
def Id128.parse (hex : Bytes) : Option Id128 := do
  if hex.length ≠ 32 then none
  else
    let h ← (hex.take 16).foldlM pushNibble 0
    let l ← (hex.drop 16).foldlM pushNibble 0
    return ⟨h, l⟩

/-- A nibble of the word is a base-16 digit of the number. -/
theorem nibble_eq (w : UInt64) {k : ℕ} (hk : k < 16) :
    ((w >>> UInt64.ofNat (4 * k)) &&& 0xF).toUInt8 = UInt8.ofNat (w.toNat / 16 ^ k % 16) := by
  have hshift : (UInt64.ofNat (4 * k)).toNat = 4 * k := by
    rw [UInt64.toNat_ofNat']
    omega
  have hand : w.toNat >>> (4 * k) &&& (0xF : UInt64).toNat = w.toNat >>> (4 * k) % 2 ^ 4 :=
    Nat.and_two_pow_sub_one_eq_mod _ 4
  have hlt : 4 * k < 64 := by omega
  apply UInt8.toNat_inj.mp
  rw [UInt64.toNat_toUInt8, UInt64.toNat_and, UInt64.toNat_shiftRight, hshift,
    Nat.mod_eq_of_lt hlt, hand, UInt8.toNat_ofNat', Nat.shiftRight_eq_div_pow, pow_mul]
  norm_num

/-- INTERNAL: the hex digits of a word. -/
theorem wordDigits_eq (w : UInt64) {k : ℕ} (hk : k ≤ 16) :
    wordDigits w k =
      (Positional.digits 16 k w.toNat).map fun d => hexChar (UInt8.ofNat d) := by
  induction k with
  | zero => rfl
  | succ k ih =>
      rw [wordDigits, Positional.digits, List.map_cons, ih (by omega), nibble_eq w hk]

/-- Pushing a printed digit appends it to the number read so far. -/
theorem pushNibble_hexChar (acc : UInt64) {d : ℕ} (hd : d < 16) :
    pushNibble acc (hexChar (UInt8.ofNat d)) = some (UInt64.ofNat (acc.toNat * 16 + d)) := by
  have hnat : (UInt8.ofNat d).toNat = d := by
    rw [UInt8.toNat_ofNat']
    omega
  have hlt : UInt8.ofNat d < 16 := by
    rw [UInt8.lt_iff_toNat_lt, hnat]
    exact hd
  rw [pushNibble, hexVal_hexChar hlt, Option.map_some, Option.some_inj]
  apply UInt64.toNat_inj.mp
  have hor : acc.toNat <<< 4 ||| d = acc.toNat <<< 4 + d :=
    (Nat.shiftLeft_add_eq_or_of_lt (by omega) acc.toNat).symm
  rw [UInt64.toNat_or, UInt64.toNat_shiftLeft, UInt8.toNat_toUInt64, hnat, UInt64.toNat_ofNat']
  have hmod : (acc.toNat <<< 4 ||| d) % 2 ^ 64 = acc.toNat <<< 4 % 2 ^ 64 ||| d % 2 ^ 64 :=
    Nat.or_mod_two_pow
  rw [hor, Nat.mod_eq_of_lt (show d < 2 ^ 64 by omega)] at hmod
  simpa [Nat.shiftLeft_eq] using hmod.symm

/-- INTERNAL: hex digits that are pushed have their value, modulo `2 ^ 64`. -/
theorem foldlM_pushNibble (acc : UInt64) {ds : List ℕ} (h : ∀ d ∈ ds, d < 16) :
    (ds.map fun d => hexChar (UInt8.ofNat d)).foldlM pushNibble acc =
      some (UInt64.ofNat (acc.toNat * 16 ^ ds.length + Positional.value 16 ds)) := by
  induction ds generalizing acc with
  | nil => simp
  | cons d ds ih =>
      have hd : d < 16 := h d (by simp)
      rw [List.map_cons, List.foldlM_cons, pushNibble_hexChar acc hd]
      simp only [Option.bind_eq_bind, Option.bind_some]
      rw [ih _ fun x hx => h x (by simp [hx]), Option.some_inj]
      apply UInt64.toNat_inj.mp
      simp only [UInt64.toNat_ofNat', Positional.value_cons, List.length_cons]
      rw [Nat.add_mod, Nat.mod_mul_mod, ← Nat.add_mod]
      congr 1
      ring

/-- INTERNAL: a word has sixteen hex digits. -/
@[simp] theorem length_wordToHex (w : UInt64) : (wordToHex w).length = 16 := by
  rw [wordToHex, wordDigits_eq w le_rfl, List.length_map, Positional.length_digits]

/-- A word is read back from its hex digits. -/
theorem foldlM_pushNibble_wordToHex (w : UInt64) :
    (wordToHex w).foldlM pushNibble 0 = some w := by
  rw [wordToHex, wordDigits_eq w le_rfl,
    foldlM_pushNibble 0 fun d hd => Positional.mem_digits_lt (by omega) hd]
  have hlt : w.toNat < 16 ^ 16 := w.toNat_lt
  rw [Positional.value_digits_of_lt hlt]
  simp

/-- Printing an identity and parsing it back gives the identity. -/
theorem Id128.parse_toHex (v : Id128) : Id128.parse v.toHex = some v := by
  have htake : (wordToHex v.hi ++ wordToHex v.lo).take 16 = wordToHex v.hi := by
    simp
  have hdrop : (wordToHex v.hi ++ wordToHex v.lo).drop 16 = wordToHex v.lo := by
    simp
  simp [Id128.parse, Id128.toHex, htake, hdrop, foldlM_pushNibble_wordToHex]

/-- INTERNAL: an id has thirty-two hex digits. -/
@[simp] theorem Id128.length_toHex (v : Id128) : v.toHex.length = 32 := by
  simp [Id128.toHex]

/-- Different ids have different texts. -/
theorem Id128.toHex_injective : Function.Injective Id128.toHex := by
  intro v w h
  have hp := congrArg Id128.parse h
  rwa [Id128.parse_toHex, Id128.parse_toHex, Option.some_inj] at hp

/-! ## Typed identities -/

/-- The tag types of `TypedId`. -/
inductive IdTag where
  | CompilationRequestId | CompilationPlanId | CompilationAttemptId | ArtifactId
  | SourceIdentity | IRIdentity | LogicalOperation | WorkerBootId

/-- SOURCE: Core.hpp:174-193 -/
structure TypedId (tag : IdTag) where
  raw : Id128 := {}
  deriving DecidableEq, Repr

section TypedIds

variable {tag : IdTag}

def TypedId.fromU64 (v : UInt64) : TypedId tag := ⟨Id128.fromU64 v⟩

def TypedId.toHex (i : TypedId tag) : Bytes := i.raw.toHex

def TypedId.parse (hex : Bytes) : Option (TypedId tag) :=
  (Id128.parse hex).map TypedId.mk

/-- A typed id is read back from its text. -/
@[simp] theorem TypedId.parse_toHex (i : TypedId tag) :
    (TypedId.parse i.toHex : Option (TypedId tag)) = some i := by
  rw [TypedId.parse, TypedId.toHex, Id128.parse_toHex]
  rfl

/-- Different typed ids have different texts. -/
theorem TypedId.toHex_injective : Function.Injective (TypedId.toHex : TypedId tag → Bytes) := by
  intro i j h
  have hraw : i.raw = j.raw := Id128.toHex_injective h
  cases i
  cases j
  simpa using hraw

end TypedIds

abbrev CompilationRequestId := TypedId .CompilationRequestId
abbrev CompilationPlanId := TypedId .CompilationPlanId
abbrev CompilationAttemptId := TypedId .CompilationAttemptId
abbrev ArtifactId := TypedId .ArtifactId
abbrev SourceIdentity := TypedId .SourceIdentity
abbrev IRIdentity := TypedId .IRIdentity
abbrev LogicalOperation := TypedId .LogicalOperation
abbrev WorkerBootId := TypedId .WorkerBootId

/-! ## Digests -/

/-- `std::array<uint8_t, 32>`. -/
structure Digest where
  bytes : Bytes
  size : bytes.length = 32
  deriving DecidableEq

/-- The value-initialised digest `Digest{}`. -/
def Digest.zero : Digest := ⟨List.replicate 32 0, rfl⟩

instance : Inhabited Digest := ⟨Digest.zero⟩

/-- Digests with the same bytes are the same. -/
theorem Digest.ext_bytes {d e : Digest} (h : d.bytes = e.bytes) : d = e := by
  cases d
  cases e
  simpa using h

/-- The two digits of one byte: `hexChar(b >> 4)`, `hexChar(b & 0xF)`. -/
def byteToHex (b : UInt8) : Bytes := [hexChar (b >>> 4), hexChar (b &&& 0xF)]

/-- SOURCE: Core.cpp:206-212 -/
def bytesToHex (s : Bytes) : Bytes := s.flatMap byteToHex

/-- SOURCE: Core.cpp:185-190 -/
def digestToHex (d : Digest) : Bytes := bytesToHex d.bytes

/-- The decoding loop of `digestFromHex`, two digits a byte. -/
def hexToBytes : Bytes → Option Bytes
  | h :: l :: rest => do
      let hv ← hexVal h
      let lv ← hexVal l
      let bs ← hexToBytes rest
      return ((hv <<< 4) ||| lv) :: bs
  | _ => some []

/-- Bytes are read back from their hex text. -/
theorem hexToBytes_bytesToHex (s : Bytes) : hexToBytes (bytesToHex s) = some s := by
  induction s with
  | nil => rfl
  | cons b s ih =>
      have hall : ∀ m : Fin 256,
          hexVal (hexChar (UInt8.ofNat m >>> 4)) = some (UInt8.ofNat m >>> 4) ∧
          hexVal (hexChar (UInt8.ofNat m &&& 0xF)) = some (UInt8.ofNat m &&& 0xF) ∧
          ((UInt8.ofNat m >>> 4) <<< 4) ||| (UInt8.ofNat m &&& 0xF) = UInt8.ofNat m := by
        decide +kernel
      have hb := hall ⟨b.toNat, b.toNat_lt⟩
      simp only [UInt8.ofNat_toNat] at hb
      obtain ⟨hhi, hlo, hjoin⟩ := hb
      have hcons : bytesToHex (b :: s) =
          hexChar (b >>> 4) :: hexChar (b &&& 0xF) :: bytesToHex s := rfl
      rw [hcons, hexToBytes, hhi, hlo, ih]
      simp [hjoin]

/-- INTERNAL: every byte has two hex digits. -/
theorem length_bytesToHex (s : Bytes) : (bytesToHex s).length = 2 * s.length := by
  induction s with
  | nil => rfl
  | cons b s ih =>
      have hcons : bytesToHex (b :: s) = byteToHex b ++ bytesToHex s := rfl
      rw [hcons, List.length_append, ih, byteToHex]
      simp only [List.length_cons, List.length_nil]
      omega

/-- INTERNAL: two hex digits are read as a byte. -/
theorem length_hexToBytes {hex bs : Bytes} (h : hexToBytes hex = some bs) :
    bs.length = hex.length / 2 := by
  induction hex using hexToBytes.induct generalizing bs with
  | case1 c d rest ih =>
      rw [hexToBytes] at h
      simp only [Option.bind_eq_bind, Option.bind_eq_some_iff, Option.pure_def,
        Option.some_inj] at h
      obtain ⟨hv, -, lv, -, ts, hts, rfl⟩ := h
      have hlen := ih hts
      simp only [List.length_cons]
      omega
  | case2 hex hshape =>
      match hex, hshape with
      | [], _ => simp_all [hexToBytes]
      | [c], _ => simp_all [hexToBytes]
      | c :: d :: rest, hs => exact absurd rfl (hs c d rest)

/-- SOURCE: Core.cpp:192-202 -/
def digestFromHex (hex : Bytes) : Option Digest :=
  if hlen : hex.length = 64 then
    match hbs : hexToBytes hex with
    | some bs => some ⟨bs, by rw [length_hexToBytes hbs, hlen]⟩
    | none => none
  else none

/-- A digest is read back from its text. -/
@[simp] theorem digestFromHex_digestToHex (d : Digest) :
    digestFromHex (digestToHex d) = some d := by
  have hlen : (digestToHex d).length = 64 := by
    rw [digestToHex, length_bytesToHex, d.size]
  have hbs : hexToBytes (digestToHex d) = some d.bytes := hexToBytes_bytesToHex d.bytes
  rw [digestFromHex, dif_pos hlen]
  split
  · next bs heq =>
    rw [hbs, Option.some_inj] at heq
    exact congrArg some (Digest.ext_bytes heq.symm)
  · next heq => simp [hbs] at heq

end CompilationFabric.Model
