/-!
# What goes wrong with files and streams

Every failing access has one cause, and every cause one wording: that of
the operating system where it has one, with its error number.
-/

namespace LoxScan

/-- The cause of a failed access. -/
inductive DiskFault where
  | notFound
  | alreadyExists
  | notADirectory
  | isADirectory
  | nameTooLong
  /-- A path holds a NUL. -/
  | nulInPath
  /-- Text was asked for and the bytes are none. -/
  | notUtf8
  /-- No directory on the way up could be made. -/
  | noTree
  /-- A cause that is known only by its description. -/
  | other (description : String)
  deriving DecidableEq, Repr

def DiskFault.message : DiskFault → String
  | .notFound => "No such file or directory (os error 2)"
  | .alreadyExists => "File exists (os error 17)"
  | .notADirectory => "Not a directory (os error 20)"
  | .isADirectory => "Is a directory (os error 21)"
  | .nameTooLong => "File name too long (os error 36)"
  | .nulInPath => "file name contained an unexpected NUL byte"
  | .notUtf8 => "stream did not contain valid UTF-8"
  | .noTree => "failed to create whole tree"
  | .other description => description

end LoxScan
