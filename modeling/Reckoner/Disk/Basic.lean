import Reckoner.Disk.Error
/-!
# Disks
-/

namespace Reckoner

/-- The questions that a program asks of a disk; a path is asked for as it was given. -/
structure Disk where
  /-- The content of the file at a path. -/
  read : String → Except Disk.Error ByteArray
  hasFolder : String → Except Disk.Error Bool
  /-- Whether a file can be written at a path. -/
  checkWrite : String → Except Disk.Error Unit

end Reckoner
