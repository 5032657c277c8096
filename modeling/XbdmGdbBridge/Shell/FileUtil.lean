import XbdmGdbBridge.Util.CText

/-!
# Paths of the two sides

Remote paths are texts with backslashes. A local path is a text that `std::filesystem` takes apart at
its slashes.
-/

namespace XbdmGdbBridge.FileUtil

open CText

-- `back` of an empty text is taken as not a backslash.
def ensureTrailingBackslash (dirPath : Bytes) : Bytes :=
  if dirPath.getLast? = some (byte '\\') then dirPath else dirPath ++ [byte '\\']

def ensureXFATStylePath (path : Bytes) : Bytes :=
  path.map fun c => if c = byte '/' then byte '\\' else c

/-- `path::is_absolute`. -/
def isAbsolute (path : Bytes) : Bool :=
  path.head? = some (byte '/')

/-- `path::has_filename`. -/
def hasFilename (path : Bytes) : Bool :=
  path ≠ [] ∧ path.getLast? ≠ some (byte '/')

/-- `operator/` of `std::filesystem::path`. -/
def append (path name : Bytes) : Bytes :=
  if isAbsolute name then name
  else if hasFilename path then path ++ byte '/' :: name
  else path ++ name

end XbdmGdbBridge.FileUtil
