import SimpleL1.Execution.Scheduler

/-!
# Running an artifact

`execute` verifies the artifact, sorts its graph and dispatches the nodes in that order.
Each node leaves one result; the envelope lists them as they came.
-/

namespace SimpleL1.Execution

open SimpleL1.Js

/-! ## Operations -/

structure Output where
  outputRef : Option Json
  output : Option Json

def emit_guard_artifact (node : Json) : JsM Output := do
  let outputRef ← Node.member (node.prop "outputs") "artifact_ref"
  let guard_artifact_hash ← Node.member (node.prop "inputs") "guard_artifact_hash"
  .ok { outputRef, output := some (.obj (Fields.ofOptions
    [("artifact_ref", outputRef), ("guard_artifact_hash", guard_artifact_hash)])) }

def emit_invariant_report (node : Json) : JsM Output := do
  let outputRef ← Node.member (node.prop "outputs") "report_ref"
  let guard_artifact_hash ← Node.member (node.prop "inputs") "guard_artifact_hash"
  .ok { outputRef, output := some (.obj (Fields.ofOptions
    [("report_ref", outputRef), ("guard_artifact_hash", guard_artifact_hash)])) }

def emit_projection_report (node : Json) : JsM Output := do
  let outputRef ← Node.member (node.prop "outputs") "report_ref"
  .ok { outputRef, output := some (.obj (Fields.ofOptions [("report_ref", outputRef)])) }

def noop (node : Json) : JsM Output := do
  let output_ref ← Node.member (node.prop "outputs") "output_ref"
  .ok { outputRef := some (orNull output_ref), output := some .null }

/-- The table has no own entry for these names, but inherits one; it is called without `this`. -/
def inherited (node : Json) : String → Option (JsM Output)
  | "constructor" => some (.ok { outputRef := node.prop "outputRef", output := node.prop "output" })
  | "toString" => some (.ok { outputRef := none, output := none })
  | "isPrototypeOf" =>
    some (if node.isObject then .error (.typeError "Cannot convert undefined or null to object")
      else .ok { outputRef := none, output := none })
  | "__proto__" => some (.error (.typeError "operation is not a function"))
  | "valueOf" | "toLocaleString" | "hasOwnProperty" | "propertyIsEnumerable" | "__defineGetter__"
  | "__defineSetter__" | "__lookupGetter__" | "__lookupSetter__" =>
    some (.error (.typeError "Cannot convert undefined or null to object"))
  | _ => none

/-- `operationTable[name]`, called with the node. -/
def operationTable (name : String) (node : Json) : Option (JsM Output) :=
  match name with
  | "emit_guard_artifact" => some (emit_guard_artifact node)
  | "emit_invariant_report" => some (emit_invariant_report node)
  | "emit_projection_report" => some (emit_projection_report node)
  | "noop" => some (noop node)
  | name => inherited node name

def nodeDetails (node : Json) : Option Json :=
  some (.obj (Fields.ofOptions [("node_id", node.prop "id")]))

def dispatch (node : Json) : KernelM Output := do
  let name ← fromJs (toStr (node.prop "operation"))
  match operationTable name node with
  | none => .error (.kernel .unknownOperation ("Unknown operation: " ++ name) (nodeDetails node))
  | some (.ok output) => .ok output
  | some (.error e) => .error (.kernel .nodeExecutionError e.message (nodeDetails node))

/-! ## Context -/

structure NodeResult where
  node_id : Option Json
  operation : Option Json
  status : String
  output_ref : Option Json

def NodeResult.value (r : NodeResult) : Json :=
  .obj (Fields.ofOptions [("node_id", r.node_id), ("operation", r.operation),
    ("status", some (.str r.status)), ("output_ref", r.output_ref)])

def resultOf (node : Json) (status : String) (outputRef : Option Json) : NodeResult where
  node_id := node.prop "id"
  operation := node.prop "operation"
  status := status
  output_ref := outputRef

/-- `outputs` lists the entries as they were set. -/
structure Context where
  sdgaHash : String
  guardArtifactHash : Option Json
  nodeResults : List NodeResult
  outputs : List (Option Json × Json)

def Context.start (identity : Identity) : Context where
  sdgaHash := identity.sdgaHash
  guardArtifactHash := identity.guardArtifactHash
  nodeResults := []
  outputs := []

def Context.recordNodeResult (c : Context) (node : Json) (status : String)
    (outputRef output : Option Json) : Context where
  sdgaHash := c.sdgaHash
  guardArtifactHash := c.guardArtifactHash
  nodeResults := c.nodeResults ++ [resultOf node status outputRef]
  outputs := if truthy outputRef then c.outputs ++ [(outputRef, output.getD .null)] else c.outputs

/-! ## Result -/

def semantic_capability : Json :=
  .obj [("reads_truth_spec", .bool false), ("evaluates_policy", .bool false),
    ("evaluates_guards", .bool false), ("branches_on_conditions", .bool false),
    ("infers_meaning", .bool false), ("modifies_graph", .bool false)]

def emitResultEnvelope (c : Context) : Json :=
  .obj (Fields.ofOptions
    [("schema_version", some (.str "simple-l1.execution_result_envelope.v1")),
      ("artifact_type", some (.str "execution_result_envelope")),
      ("kernel_contract", some (.str "EKC_v0")),
      ("sdga_hash", some (.str c.sdgaHash)),
      ("guard_artifact_hash", c.guardArtifactHash),
      ("execution_status", some (.str "completed")),
      ("completion_state", some (.str "deterministic_complete")),
      ("semantic_capability", some semantic_capability),
      ("node_results", some (.arr (c.nodeResults.map NodeResult.value)))])

def runNodes (c : Context) : List Entry → KernelM Context
  | [] => .ok c
  | e :: entries => do
    let out ← dispatch e.1
    runNodes (c.recordNodeResult e.1 "completed" out.outputRef out.output) entries

def execute (d : Digest) (sdga : Json) : KernelM Json := do
  let identity ← verifyArtifact d sdga
  let orderedNodes ← topologicalSort (graphOf sdga)
  let context ← runNodes (Context.start identity) orderedNodes
  .ok (emitResultEnvelope context)

/-! ## One result per node -/

/-- The result is the node's: its id, its operation and where its output went. -/
def Records (e : Entry) (r : NodeResult) : Prop :=
  ∃ out, dispatch e.1 = .ok out ∧ r = resultOf e.1 "completed" out.outputRef

theorem runNodes_eq_ok {entries : List Entry} {c c' : Context} (h : runNodes c entries = .ok c') :
    ∃ results, c'.nodeResults = c.nodeResults ++ results ∧ List.Forall₂ Records entries results := by
  induction entries generalizing c with
  | nil =>
    cases h
    exact ⟨[], by simp, .nil⟩
  | cons e entries ih =>
    obtain ⟨out, hout, h⟩ := bind_eq_ok.mp h
    obtain ⟨results, heq, hall⟩ := ih h
    refine ⟨_ :: results, ?_, .cons ⟨out, hout, rfl⟩ hall⟩
    rw [heq, Context.recordNodeResult, List.append_assoc, List.singleton_append]

/-- `execute` leaves the results of the sorted nodes, in their order. -/
theorem execute_eq_ok {d : Digest} {sdga envelope : Json} (h : execute d sdga = .ok envelope) :
    ∃ ordered results, topologicalSort (graphOf sdga) = .ok ordered ∧
      List.Forall₂ Records ordered results ∧
      envelope.prop "node_results" = some (.arr (results.map NodeResult.value)) := by
  obtain ⟨identity, -, h⟩ := bind_eq_ok.mp h
  obtain ⟨ordered, hordered, h⟩ := bind_eq_ok.mp h
  obtain ⟨c, hrun, h⟩ := bind_eq_ok.mp h
  cases h
  obtain ⟨results, heq, hall⟩ := runNodes_eq_ok hrun
  refine ⟨ordered, results, hordered, hall, ?_⟩
  have hresults : c.nodeResults = results := heq
  simp [emitResultEnvelope, hresults]

/-- A graph that is sorted runs every node once and in order exactly when no two of its nodes
have the same id. -/
theorem runs_in_order_iff {g : Graph} {ordered : List Entry} (h : topologicalSort g = .ok ordered) :
    (InOrder g ordered ∧ ∀ d sdga envelope, graphOf sdga = g → execute d sdga = .ok envelope →
      ∃ results, List.Forall₂ Records ordered results ∧
        envelope.prop "node_results" = some (.arr (results.map NodeResult.value))) ↔
      g.keys.Nodup := by
  rw [← inOrder_iff h]
  refine ⟨fun hin => hin.1, fun hin => ⟨hin, fun d sdga envelope hgraph hexec => ?_⟩⟩
  obtain ⟨ordered', results, hordered, hall, heq⟩ := execute_eq_ok hexec
  rw [hgraph] at hordered
  cases h.symm.trans hordered
  exact ⟨results, hall, heq⟩

/-! ## Two graphs -/

def noopNode (id output_ref : String) : Json :=
  .obj [("id", .str id), ("operation", .str "noop"), ("outputs", .obj [("output_ref", .str output_ref)])]

/-- The guard runs before its report, although it is listed after it. -/
def guardedGraph : Graph where
  nodes := [noopNode "report" "report-ref", noopNode "guard" "guard-ref"]
  edges := [.obj [("from", .str "guard"), ("to", .str "report")]]

theorem guardedGraph_runs_in_order :
    ∃ ordered, topologicalSort guardedGraph = .ok ordered ∧ InOrder guardedGraph ordered := by
  have h : topologicalSort guardedGraph =
      .ok [(noopNode "guard" "guard-ref", 1), (noopNode "report" "report-ref", 0)] := by rfl
  exact ⟨_, h, ((runs_in_order_iff h).mpr (by decide)).1⟩

/-- Two nodes under one id. -/
def repeatedGraph : Graph where
  nodes := [noopNode "guard" "first", noopNode "guard" "second"]
  edges := []

/-- The second node runs twice and the first one never. -/
theorem repeatedGraph_not_in_order :
    ∃ ordered, topologicalSort repeatedGraph = .ok ordered ∧ ¬ InOrder repeatedGraph ordered := by
  refine ⟨[(noopNode "guard" "second", 1), (noopNode "guard" "second", 1)], by rfl, fun h => ?_⟩
  have hfirst : (noopNode "guard" "first", 0) ∈ repeatedGraph.entries := List.mem_cons_self
  have := h.once.mem_iff.mpr hfirst
  simp at this

end SimpleL1.Execution
