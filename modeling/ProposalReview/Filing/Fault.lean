import ProposalReview.Filing.Path
/-!
Faults of the file system, and the errors of storing that they lead to.
-/

namespace ProposalReview

/-- Why an operation on files failed. -/
inductive FileFault where
  | notFound
  | alreadyExists
  | notDirectory
  | isDirectory
  | notEmpty
  | invalidArgument
  | busy
  | nameTooLong
  | tooManyLinks
  | crossesDevices
  /-- A path that holds a zero byte. -/
  | zeroByte
  /-- Any other fault, in the words of the system. -/
  | other (text : String)
  deriving DecidableEq, Repr

/-- A fault in the words of the system. -/
def FileFault.text : FileFault → String
  | .notFound => "No such file or directory (os error 2)"
  | .alreadyExists => "File exists (os error 17)"
  | .notDirectory => "Not a directory (os error 20)"
  | .isDirectory => "Is a directory (os error 21)"
  | .notEmpty => "Directory not empty (os error 39)"
  | .invalidArgument => "Invalid argument (os error 22)"
  | .busy => "Device or resource busy (os error 16)"
  | .nameTooLong => "File name too long (os error 36)"
  | .tooManyLinks => "Too many levels of symbolic links (os error 40)"
  | .crossesDevices => "Invalid cross-device link (os error 18)"
  | .zeroByte => "file name contained an unexpected NUL byte"
  | .other text => text

/-- What was being done when a fault arose. -/
inductive StoreAction where
  | creating
  | readingInbox
  | reading
  | readingTime
  | writing
  | moving
  | copying
  | removing
  deriving DecidableEq, Repr

/-- An action in words. -/
def StoreAction.text : StoreAction → String
  | .creating => "creating"
  | .readingInbox => "reading inbox"
  | .reading => "reading"
  | .readingTime => "reading mtime of"
  | .writing => "writing"
  | .moving => "moving"
  | .copying => "copying"
  | .removing => "removing"

/-- What was being done with a path, and why it failed. -/
structure StoreError where
  action : StoreAction
  path : Path
  cause : FileFault
  deriving DecidableEq, Repr

/-- A store error in words. -/
def StoreError.message (e : StoreError) : String :=
  e.action.text ++ " " ++ e.path.display ++ ": " ++ e.cause.text

end ProposalReview
