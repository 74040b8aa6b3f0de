/-!
# What can go wrong with a file

A file is not read or written for one of a few reasons. Those a file system
gives have a number, which is shown with them.
-/

namespace Offside

/-- **Why a file was not read or written.** -/
inductive FileError where
  /-- There is nothing of this name. -/
  | notFound
  /-- Something on the way is no directory. -/
  | notDirectory
  /-- It is a directory. -/
  | isDirectory
  /-- A name, or the whole path, is longer than a file system takes. -/
  | nameTooLong
  /-- A name holds the character that ends one. -/
  | nulInName
  /-- The content is no text. -/
  | notUtf8
  /-- Something else. -/
  | other (message : String)
  deriving Repr, DecidableEq

/-- What is said of such a reason. -/
def FileError.message : FileError → String
  | notFound => "No such file or directory (os error 2)"
  | notDirectory => "Not a directory (os error 20)"
  | isDirectory => "Is a directory (os error 21)"
  | nameTooLong => "File name too long (os error 36)"
  | nulInName => "file name contained an unexpected NUL byte"
  | notUtf8 => "stream did not contain valid UTF-8"
  | other message => message

end Offside
