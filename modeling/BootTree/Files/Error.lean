/-
  Why an operation on files fails: the cause that the file system gives, and the error that names
  the path or the document concerned. A lock that cannot be had is an error without a cause.
-/
import BootTree.Glob.Pattern

namespace BootTree

/-- The causes that the file system gives. -/
inductive Cause where
  | notFound
  | alreadyExists
  | notDirectory
  | isDirectory
  | busy
  | nameTooLong
  | nullCharacter
  | notText
  deriving DecidableEq, Repr

def Cause.message : Cause → String
  | .notFound => "No such file or directory (os error 2)"
  | .alreadyExists => "File exists (os error 17)"
  | .notDirectory => "Not a directory (os error 20)"
  | .isDirectory => "Is a directory (os error 21)"
  | .busy => "Device or resource busy (os error 16)"
  | .nameTooLong => "File name too long (os error 36)"
  | .nullCharacter => "file name contained an unexpected NUL byte"
  | .notText => "stream did not contain valid UTF-8"

/-- The formats of documents. -/
inductive Format where
  | json
  | yaml
  | toml
  deriving DecidableEq, Repr

def Format.name : Format → String
  | .json => "JSON"
  | .yaml => "YAML"
  | .toml => "TOML"

/-- The errors of operations on files and documents, each with what it concerns. -/
inductive FileError where
  | io (path : String) (cause : Cause)
  | unreadable (path : String) (format : Format)
  | unwritable (path : String) (format : Format)
  | unknownFormat (extension : String)
  | pattern (text : String) (fault : Glob.PatternError)
  | notAFile (path : String)
  | lockFailed (path : String)
  deriving DecidableEq, Repr

def FileError.message : FileError → String
  | .io path cause => s!"I/O error at {path}: {cause.message}"
  | .unreadable path format => s!"Failed to parse {format.name} config at {path}"
  | .unwritable path format => s!"Failed to serialize {format.name} config for {path}"
  | .unknownFormat extension => s!"Unsupported config format: {extension}"
  | .pattern text fault => s!"Invalid glob pattern '{text}': {fault.message}"
  | .notAFile path => s!"Source is not a file: {path}"
  | .lockFailed path => s!"Lock acquisition failed for {path}"

end BootTree
