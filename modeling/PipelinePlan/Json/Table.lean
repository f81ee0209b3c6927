import PipelinePlan.Json.Basic
import PipelinePlan.Table

namespace PipelinePlan

namespace Table

def toJson {α : Type} (encode : α → Json) (t : Table α) : Json :=
  .record (t.entries.map fun entry => (entry.1, encode entry.2))

def ofJson? {α : Type} (decode : Json → Option α) : Json → Option (Table α)
  | .record members =>
    (members.mapM fun member => (decode member.2).map (member.1, ·)).map Table.ofList
  | _ => none

end Table

end PipelinePlan
