import SimpleL1.Node.Platform

/-!
# The artifact of the execution kernel

A signed decision graph is checked before it runs: its shape, the links between its
parts and the hash of its graph. The hash is taken over canonical text with
two spaces of indent; `sha256` itself is a parameter.
-/

namespace SimpleL1.Execution

open SimpleL1.Js SimpleL1.Node

/-! ## Errors -/

/-- `FAILURE`. -/
inductive Failure where
  | invalidArtifact
  | signatureMismatch
  | hashMismatch
  | provenanceMismatch
  | topologyError
  | unknownOperation
  | nodeExecutionError
  deriving DecidableEq, Repr

/-- What is thrown: a `KernelError`, or an error of the language. -/
inductive Thrown where
  | kernel (code : Failure) (message : String) (details : Option Json)
  | language (e : Error)

abbrev KernelM := Except Thrown

def fromJs {α : Type} : JsM α → KernelM α
  | .ok a => .ok a
  | .error e => .error (.language e)

@[simp] theorem fromJs_ok {α : Type} (a : α) : fromJs (.ok a) = .ok a := rfl

theorem fromJs_eq_ok {α : Type} {x : JsM α} {a : α} : fromJs x = .ok a ↔ x = .ok a := by
  cases x with
  | error e => exact ⟨(fun h => by cases h), fun h => by cases h⟩
  | ok b => exact ⟨fun h => by cases h; rfl, fun h => by cases h; rfl⟩

theorem bind_eq_ok {α β : Type} {x : KernelM α} {f : α → KernelM β} {b : β} :
    x >>= f = .ok b ↔ ∃ a, x = .ok a ∧ f a = .ok b := by
  cases x with
  | error e => exact ⟨(fun h => by cases h), fun ⟨_, h, _⟩ => by cases h⟩
  | ok a => exact ⟨fun h => ⟨a, rfl, h⟩, fun ⟨_, h, hf⟩ => by cases h; exact hf⟩

/-- `if (!c) throw new KernelError(code, message, details)`; `details` defaults to an empty object. -/
def require (c : Bool) (code : Failure) (message : String) (details : Json := .obj []) :
    KernelM Unit :=
  if c then .ok () else .error (.kernel code message (some details))

theorem require_bind_eq_ok {α : Type} {c : Bool} {code : Failure} {message : String} {details : Json}
    {f : Unit → KernelM α} {a : α} :
    require c code message details >>= f = .ok a ↔ c = true ∧ f () = .ok a := by
  cases c with
  | false => exact ⟨(fun h => by cases h), fun h => by cases h.1⟩
  | true => exact ⟨fun h => ⟨rfl, h⟩, fun h => h.2⟩

/-! ## Indented text -/

/-- A line break and two spaces for each level. -/
def newline (depth : Nat) : List Char := '\n' :: List.replicate (2 * depth) ' '

/-- What stands between two brackets, one part a line. -/
def block (opening closing : Char) (depth : Nat) (parts : List (List Char)) : List Char :=
  match parts with
  | [] => [opening, closing]
  | parts =>
    opening :: newline (depth + 1) ++ (',' :: newline (depth + 1)).intercalate parts ++
      newline depth ++ [closing]

mutual

/-- `JSON.stringify(v, null, 2)` below `depth` brackets. -/
def indented (depth : Nat) : Json → List Char
  | .arr xs => block '[' ']' depth (indentedList (depth + 1) xs)
  | .obj fs => block '\x7b' '\x7d' depth (indentedFields (depth + 1) fs)
  | v => v.text

def indentedList (depth : Nat) : List Json → List (List Char)
  | [] => []
  | x :: xs => indented depth x :: indentedList depth xs

def indentedFields (depth : Nat) : List (String × Json) → List (List Char)
  | [] => []
  | (k, v) :: fs => (quote k ++ ':' :: ' ' :: indented depth v) :: indentedFields depth fs

end

def stableJson (value : Json) : String := String.ofList (indented 0 value.canon)

/-! ## Verification -/

/-- What the kernel takes from outside: the hexadecimal SHA-256 digest of a text. -/
structure Digest where
  hex : String → String

def Digest.sha256 (d : Digest) (value : String) : String := "sha256:" ++ d.hex value

/-- `a.k`, where `a` is not `undefined` or `null`; and `a?.k`. -/
def field (a : Option Json) (k : String) : Option Json := a.bind (·.prop k)

def isArray : Option Json → Bool
  | some v => v.isArray
  | none => false

structure Identity where
  guardArtifactHash : Option Json
  sdgaHash : String

/-- The flags that have to be `false`. -/
def forbidden : List String :=
  ["semantic_interpretation_allowed", "conditional_logic_allowed", "policy_evaluation_allowed",
    "spec_reference_allowed"]

def requireFlags (model : Option Json) : List String → KernelM Unit
  | [] => .ok ()
  | flag :: flags => do
    require (strictEq (field model flag) (some (.bool false))) .invalidArtifact
      ("SDGA execution model must set " ++ flag ++ "=false")
    requireFlags model flags

def verifyArtifact (d : Digest) (sdga : Json) : KernelM Identity := do
  require sdga.isObject .invalidArtifact "SDGA must be an object"
  require (strictEq (sdga.prop "schema_version") (some (.str "simple-l1.signed_decision_graph.v1")))
    .invalidArtifact "Unexpected SDGA schema_version"
  require (strictEq (sdga.prop "release_boundary") (some (.str "SDGA_v0")))
    .invalidArtifact "Unexpected SDGA release boundary"
  let signature := sdga.prop "signature"
  require (truthy signature && truthy (field signature "algorithm") &&
      truthy (field signature "key_id") && truthy (field signature "value"))
    .signatureMismatch "SDGA signature metadata is incomplete"
  let provenance := sdga.prop "provenance"
  require (truthy provenance &&
      strictEq (field provenance "guard_artifact_hash") (sdga.prop "guard_artifact_hash"))
    .provenanceMismatch "SDGA provenance does not link to guard artifact hash"
  let graph := sdga.prop "graph"
  require (truthy graph && isArray (field graph "nodes") && isArray (field graph "edges"))
    .invalidArtifact "SDGA graph must include nodes and edges"
  let model := sdga.prop "execution_model"
  require (strictEq (field model "runtime_role") (some (.str "non_semantic_executor")))
    .invalidArtifact "SDGA execution model must target non_semantic_executor"
  requireFlags model forbidden
  let graphHash := d.sha256 (stableJson (graph.getD .null))
  require (strictEq (some (.str graphHash)) (sdga.prop "decision_graph_hash"))
    .hashMismatch "SDGA graph hash does not match decision_graph_hash"
    (.obj (Fields.ofOptions
      [("expected", sdga.prop "decision_graph_hash"), ("received", some (.str graphHash))]))
  .ok { guardArtifactHash := sdga.prop "guard_artifact_hash", sdgaHash := d.sha256 (stableJson sdga) }

/-! ## The graph -/

structure Graph where
  nodes : List Json
  edges : List Json

def elements : Option Json → List Json
  | some (.arr xs) => xs
  | _ => []

/-- `sdga.graph`, with its two lists. -/
def graphOf (sdga : Json) : Graph where
  nodes := elements (field (sdga.prop "graph") "nodes")
  edges := elements (field (sdga.prop "graph") "edges")

end SimpleL1.Execution
