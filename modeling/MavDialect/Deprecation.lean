-- The note that something should no longer be used.

namespace MavDialect

structure Deprecation where
  since : String
  replacedBy : String
  note : List String
  deriving Repr, DecidableEq

end MavDialect
