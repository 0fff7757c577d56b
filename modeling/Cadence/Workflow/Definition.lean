import Cadence.Json.Display
import Cadence.Schema.Scalar

/-!
# Workflows

A workflow is a list of nodes that are run in order. The type of a node stays a text, so that a
definition with an unknown type can be stored and is refused only when it is run.
-/

namespace Cadence.Workflow

structure Node where
  id : String
  type : String
  config : Members
deriving Inhabited

/-- A list of nodes, with an id and a name if it has them. -/
structure Definition where
  id : Option String := none
  name : Option String := none
  nodes : List Node := []
deriving Inhabited

namespace Node

/-- The trimmed id of a node, which cannot be blank. -/
def readId (v : Json) : Checked String :=
  (Schema.text v).andThen fun s =>
    let id := Text.strip s
    if id = "" then .complain (.rule "Node ID cannot be empty") else .valid id

/-- The settings of a node. Any value that is not given stands for none. -/
def readConfig (v : Json) : Checked Members :=
  if v.isGiven then Schema.dictionary v else .valid []

def read (v : Json) : Checked Node :=
  (Schema.record "WorkflowNode" v).andThen fun data =>
    mk <$> Schema.required data "id" readId
      <*> Schema.required data "type" Schema.text
      <*> Schema.optional data "config" [] readConfig

def toJson (n : Node) : Json :=
  .obj [("id", .str n.id), ("type", .str n.type), ("config", .obj n.config)]

end Node

namespace Definition

/-- The nodes of a workflow, no two of which have the same id. -/
def readNodes (v : Json) : Checked (List Node) :=
  (Schema.listOf Node.read v).andThen fun nodes =>
    if (nodes.map (·.id)).Nodup then .valid nodes
    else .complain (.rule "All node IDs must be unique")

def read (v : Json) : Checked Definition :=
  (Schema.record "WorkflowDefinition" v).andThen fun data =>
    mk <$> Schema.optional data "id" none (Schema.nullable Schema.text)
      <*> Schema.optional data "name" none (Schema.nullable Schema.text)
      <*> Schema.optional data "nodes" [] readNodes

def toJson (w : Definition) : Json :=
  .obj [("id", Json.ofText? w.id), ("name", Json.ofText? w.name),
    ("nodes", .arr (w.nodes.map Node.toJson))]

end Definition

end Cadence.Workflow
