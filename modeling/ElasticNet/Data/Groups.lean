import ElasticNet.Data

namespace ElasticNet

def insertKey (key : String) : List String → List String
  | [] => [key]
  | first :: rest =>
    if key < first then key :: first :: rest
    else if key = first then first :: rest
    else first :: insertKey key rest

variable {α : Type}

def Partition.select (part : Partition α) (key : String) : Partition α where
  dimension := part.dimension
  rows := part.rows.filter fun row => row.group = key
  sized := fun row member => part.sized row ((List.mem_filter.mp member).1)

namespace Source

def groupKeys (source : Source α) : List String :=
  source.rows.foldl (fun keys row => insertKey row.group keys) []

def selectGroup (source : Source α) (key : String) : Source α where
  dimension := source.dimension
  partitions := (source.partitions.map (Partition.select · key)).filter fun part => part.rows ≠ []
  uniform := by
    intro part member
    obtain ⟨whole, inside, rfl⟩ := List.mem_map.mp ((List.mem_filter.mp member).1)
    exact source.uniform whole inside

end Source

end ElasticNet
