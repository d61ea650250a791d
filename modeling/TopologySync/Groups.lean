-- Named groups of members. A group is there only as long as it has a
-- member, so that the groups are told apart by their members alone.
import Std.Data.ExtTreeMap
import Std.Data.ExtTreeSet

namespace TopologySync

/-- Groups of texts by name. -/
abbrev Groups := Std.ExtTreeMap String (Std.ExtTreeSet String)

instance : DecidableEq Groups :=
  inferInstance

namespace Groups

/-- The members of a group; a group that is not there has none. -/
def members (groups : Groups) (name : String) : Std.ExtTreeSet String :=
  groups[name]?.getD ∅

def add (groups : Groups) (name member : String) : Groups :=
  groups.insert name ((groups.members name).insert member)

/-- Takes a member out of a group, and the group away with its last one. -/
def remove (groups : Groups) (name member : String) : Groups :=
  let left := (groups.members name).erase member
  if left.isEmpty then groups.erase name else groups.insert name left

end Groups

end TopologySync
