import CourseBlueprint.Digest.Sha1
import CourseBlueprint.Uuid

/-!
# Derived identifiers

An identifier of version 5 is computed from a space and a name: it is the start of the SHA-1 digest
of the space's bytes and the name's. The same pair always has the same identifier.
-/

namespace CourseBlueprint.Uuid

/-- The identifier of a name within a space. -/
def derived (space : Uuid) (name : String) : Uuid :=
  let message := space.bytes ++ name.toByteArray.data.toList
  withVersion 5 (ofBytes ((Digest.Sha1.digest message).take 16))

end CourseBlueprint.Uuid
