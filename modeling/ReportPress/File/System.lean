import ReportPress.File.Path

/-!
# File systems

What the library needs to know about files: whether a path names one, and what is in it. Everything
above works for any file system; the in-memory tree is one of them.
-/

namespace ReportPress

inductive FileError where
  | notFound
  | alreadyExists
  | notADirectory
  | isADirectory
  | nameTooLong
  | nullInPath
  /-- The file was to be a text and is not one. -/
  | notAText
  | permissionDenied
  /-- Anything else, in the words of the system. -/
  | other (reason : String)
  deriving DecidableEq, Repr

def FileError.message : FileError → String
  | .notFound => "No such file or directory (os error 2)"
  | .alreadyExists => "File exists (os error 17)"
  | .notADirectory => "Not a directory (os error 20)"
  | .isADirectory => "Is a directory (os error 21)"
  | .nameTooLong => "File name too long (os error 36)"
  | .nullInPath => "file name contained an unexpected NUL byte"
  | .notAText => "stream did not contain valid UTF-8"
  | .permissionDenied => "Permission denied (os error 13)"
  | .other reason => reason

structure FileSystem where
  isFile : Path → Bool
  read : Path → Except FileError ByteArray

end ReportPress
