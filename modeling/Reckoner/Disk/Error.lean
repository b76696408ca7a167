import Reckoner.Text.Quoted
/-!
# Why a file cannot be opened
-/

namespace Reckoner.Disk

inductive Error where
  /-- A name on the way, or the last one, that is not there. -/
  | missing
  /-- Names go on below a file. -/
  | notFolder
  /-- The path leads to a folder, or its end asks for one. -/
  | isFolder
  | nameTooLong
  | nullCharacter
  deriving DecidableEq

/-- The wording for a path as it was given. -/
def Error.message (path : String) : Error → String
  | missing => "[Errno 2] No such file or directory: " ++ Text.quoted path
  | notFolder => "[Errno 20] Not a directory: " ++ Text.quoted path
  | isFolder => "[Errno 21] Is a directory: " ++ Text.quoted path
  | nameTooLong => "[Errno 36] File name too long: " ++ Text.quoted path
  | nullCharacter => "embedded null byte"

end Reckoner.Disk
