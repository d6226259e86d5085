import SimpleL1.Execution.Executor
import SimpleL1.Js.Replacer

/-!
# Comparing a kernel result with a runtime observation

Node results are looked up by a text made of id and operation, the last one under a text
counts, and the order of the nodes is compared as one text with a line for each id.
-/

namespace SimpleL1.Execution

open SimpleL1.Js

def resultHash (d : Digest) (result : Json) : String := d.sha256 (stableJson result)

/-! ## Node results -/

def nodeKey (result : Json) : JsM String := do
  let node_id ← toStr (← Node.member (some result) "node_id")
  let operation ← toStr (← Node.member (some result) "operation")
  .ok (node_id ++ ":" ++ operation)

def nodeDiff (result : Json) (diff_type : String) : Json :=
  .obj (Fields.ofOptions [("node_id", result.prop "node_id"), ("diff_type", some (.str diff_type))])

/-- The entries a `Map` is made of; `get` finds the last one with a key. -/
def keyed (result : Json) : JsM (String × Json) := do
  let key ← nodeKey result
  .ok (key, result)

def mismatches (result : Json) (runtime : Option Json) : List Json :=
  (if strictEq (field runtime "status") (result.prop "status") then []
    else [nodeDiff result "status_mismatch"]) ++
  (if strictEq (field runtime "output_ref") (result.prop "output_ref") then []
    else [nodeDiff result "output_ref_mismatch"])

def kernelDiff (runtimeByKey : List (String × Json)) (result : Json) : JsM (List Json) := do
  let key ← nodeKey result
  let runtime := runtimeByKey.reverse.lookup key
  .ok (if truthy runtime then mismatches result runtime else [nodeDiff result "missing_node"])

def runtimeDiff (kernelByKey : List (String × Json)) (result : Json) : JsM (List Json) := do
  let key ← nodeKey result
  .ok (if key ∈ kernelByKey.map Prod.fst then [] else [nodeDiff result "unexpected_node"])

def compareNodeResults (kernelResults runtimeResults : List Json) : JsM (List Json) := do
  let runtimeByKey ← runtimeResults.mapM keyed
  let kernelByKey ← kernelResults.mapM keyed
  let kernelDiffs ← kernelResults.mapM (kernelDiff runtimeByKey)
  let runtimeDiffs ← runtimeResults.mapM (runtimeDiff kernelByKey)
  .ok (kernelDiffs.flatten ++ runtimeDiffs.flatten)

def idText (result : Json) : JsM String := do
  let node_id ← Node.member (some result) "node_id"
  joined node_id

/-- `join('\n')`. -/
def joinLines (texts : List String) : String :=
  String.ofList (['\n'].intercalate (texts.map String.toList))

/-! ## The comparison -/

structure Comparison where
  correlationId : Option Json
  sdga : Option Json
  kernelResult : Json
  runtimeObservation : Json
  observedAt : Option Json := some (.str "1970-01-01T00:00:00.000Z")

structure Report where
  ok : Bool
  kernel_result_hash : String
  runtime_result_hash : String
  divergences : List Json

/-- `kernelResult.guard_artifact_hash || sdga.guard_artifact_hash`. -/
def Comparison.guardHash (c : Comparison) (own : Option Json) : JsM (Option Json) :=
  if truthy own then .ok own else Node.member c.sdga "guard_artifact_hash"

/-- What every divergence record says first. -/
def Comparison.common (c : Comparison) (d : Digest) : JsM Record := do
  let sdga_hash ← Node.member (some c.kernelResult) "sdga_hash"
  let own ← Node.member (some c.kernelResult) "guard_artifact_hash"
  let guard_artifact_hash ← c.guardHash own
  .ok [("schema_version", some (.str "simple-l1.shadow_divergence_record.v1")),
    ("artifact_type", some (.str "shadow_divergence_record")),
    ("phase", some (.str "SEVP_v0")),
    ("correlation_id", c.correlationId),
    ("sdga_hash", sdga_hash),
    ("guard_artifact_hash", guard_artifact_hash),
    ("kernel_result_hash", some (.str (resultHash d c.kernelResult))),
    ("runtime_result_hash", some (.str (resultHash d c.runtimeObservation))),
    ("observed_at", c.observedAt),
    ("production_effect", some (.str "none"))]

def divergence (common : Record) (divergence_type name : String) (expected observed : Option Json)
    (node_level_diff : List Json) (severity : String) : Json :=
  .obj (Fields.ofOptions (common ++
    [("divergence_type", some (.str divergence_type)), ("field", some (.str name)),
      ("expected", expected), ("observed", observed),
      ("node_level_diff", some (.arr node_level_diff)), ("severity", some (.str severity))]))

def comparedFields : List String :=
  ["execution_status", "completion_state", "guard_artifact_hash", "sdga_hash"]

def fieldDivergence (c : Comparison) (common : Record) (name : String) : JsM (List Json) := do
  let expected ← Node.member (some c.kernelResult) name
  let observed ← Node.member (some c.runtimeObservation) name
  if strictEq expected observed then .ok []
  else .ok [divergence common "value_mismatch" name expected observed []
    (if name = "execution_status" then "blocker" else "warn")]

/-- `v.node_results || []`, where the list is mapped. -/
def nodeResults (v : Json) : JsM (List Json) := do
  let node_results ← Node.member (some v) "node_results"
  Node.arrayOrEmpty node_results "(intermediate value).map"

def nodeDivergence (c : Comparison) (common : Record) : JsM (List Json) := do
  let kernelResults ← nodeResults c.kernelResult
  let kernelOrder := joinLines (← kernelResults.mapM idText)
  let runtimeResults ← nodeResults c.runtimeObservation
  let runtimeOrder := joinLines (← runtimeResults.mapM idText)
  let nodeDiffs ← compareNodeResults kernelResults runtimeResults
  if kernelOrder ≠ runtimeOrder then
    .ok [divergence common "order_mismatch" "node_results" (some (.str kernelOrder))
      (some (.str runtimeOrder)) nodeDiffs "blocker"]
  else if nodeDiffs.length > 0 then
    .ok [divergence common "value_mismatch" "node_results" (c.kernelResult.prop "node_results")
      (c.runtimeObservation.prop "node_results") nodeDiffs "warn"]
  else .ok []

def compareShadowExecution (d : Digest) (c : Comparison) : JsM Report := do
  let common ← c.common d
  let fieldDivergences ← comparedFields.mapM (fieldDivergence c common)
  let nodeDivergences ← nodeDivergence c common
  let divergences := fieldDivergences.flatten ++ nodeDivergences
  .ok { ok := divergences.length = 0, kernel_result_hash := resultHash d c.kernelResult,
        runtime_result_hash := resultHash d c.runtimeObservation, divergences }

end SimpleL1.Execution
