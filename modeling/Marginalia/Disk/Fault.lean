/-!
# Faults of the disk

Why a file cannot be read or written, with the wording and the number
that the system gives.
-/

namespace Marginalia.Disk

/-- Why an access to the disk failed. -/
inductive Fault where
  | notFound
  | alreadyExists
  | notDirectory
  | isDirectory
  /-- A name has more bytes than a directory can hold, or a path more
  than the system takes. -/
  | nameTooLong
  /-- A path holds the character that ends paths for the system. -/
  | nulInPath
  /-- The bytes of a file that has to be text are not UTF-8. -/
  | notText
  /-- Anything else that the system reports, in its words. -/
  | other (report : String)
  deriving DecidableEq

/-- The wording of a fault. -/
def Fault.message : Fault → String
  | notFound => "No such file or directory (os error 2)"
  | alreadyExists => "File exists (os error 17)"
  | notDirectory => "Not a directory (os error 20)"
  | isDirectory => "Is a directory (os error 21)"
  | nameTooLong => "File name too long (os error 36)"
  | nulInPath => "file name contained an unexpected NUL byte"
  | notText => "stream did not contain valid UTF-8"
  | other report => report

end Marginalia.Disk
