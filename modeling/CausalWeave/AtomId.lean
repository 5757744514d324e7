namespace CausalWeave

/-- The stable name of the replica that authors atoms. -/
structure Site where
  name : String
deriving DecidableEq, Hashable

structure AtomId where
  site : Site
  timestamp : UInt64
  priority : Int32 := 0
deriving DecidableEq, Hashable

/-- What decides the place of an atom among its siblings. -/
structure Weight where
  priority : Int32
  timestamp : UInt64
  site : Site
deriving DecidableEq

/-- The smallest weight is placed first: higher priorities before lower ones, then newer
timestamps before older ones, then sites in alphabetical order. -/
instance : Ord Weight where
  compare first second :=
    ((compare second.priority first.priority).then
      (compare second.timestamp first.timestamp)).then
        (compare first.site.name second.site.name)

namespace AtomId

/-- The part of an id that no two atoms may share. -/
def key (id : AtomId) : Site × UInt64 :=
  (id.site, id.timestamp)

def weight (id : AtomId) : Weight where
  priority := id.priority
  timestamp := id.timestamp
  site := id.site

/-- `lt` when the first id is placed before the second among siblings. -/
def siblingOrder (first second : AtomId) : Ordering :=
  compare first.weight second.weight

/-- The text of an id for people; a priority of zero goes without saying. -/
def shown (id : AtomId) : String :=
  let named := id.site.name ++ "@" ++ toString id.timestamp.toNat
  if id.priority = 0 then named else named ++ "^" ++ toString id.priority.toInt

end AtomId
end CausalWeave
