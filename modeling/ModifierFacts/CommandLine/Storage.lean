import ModifierFacts.Config.Basic
import ModifierFacts.Extraction.Json

/-!
# Files

What the program asks of the files around it, and how a configuration and a document are loaded.

* `Storage` answers whether a path can be read as text, and whether a file can be created there.
* `FileError` says why not.
* `Config.load` and `loadDocument` read a file; a configuration that does not exist is the default
  one.
-/

namespace ModifierFacts

/-! ## 1. Storage -/

/-- Why a file cannot be read or created. -/
inductive FileError where
  | notFound
  | isDirectory
  | notDirectory
  /-- A name in the path, or the whole path, is longer than the system allows. -/
  | nameTooLong
  /-- The path leads nowhere for another reason, in the words of the system: its links go in a
  circle, or a folder on the way is closed. -/
  | unreachable (reason : String)
  /-- The bytes are no UTF-8 text. -/
  | notText
  /-- Any other failure, in the words of the system. -/
  | other (reason : String)
  deriving DecidableEq, Repr

/-- The text of the error. -/
def FileError.message : FileError → String
  | notFound => "No such file or directory (os error 2)"
  | isDirectory => "Is a directory (os error 21)"
  | notDirectory => "Not a directory (os error 20)"
  | nameTooLong => "File name too long (os error 36)"
  | notText => "stream did not contain valid UTF-8"
  | unreachable reason | other reason => reason

/-- The files around the program. -/
structure Storage where
  /-- The text of the file at a path. -/
  read : String → Except FileError String
  /-- Creates or empties the file at a path. -/
  create : String → Except FileError Unit

/-- What stands at a path. -/
inductive File where
  | bytes (content : List UInt8)
  | directory
  deriving DecidableEq, Repr

namespace File

/-- The text of a file. -/
def text : File → Except FileError String
  | bytes content =>
    match String.fromUTF8? ⟨content.toArray⟩ with
    | some s => .ok s
    | none => .error .notText
  | directory => .error .isDirectory

end File

/-! ## 2. Loading -/

namespace Config

/-- The configuration in a file. Where a path leads nowhere it is the default one. -/
def ofFile (path : String) : Except FileError String → Except ConfigError Config
  | .ok text => parse text
  | .error .notFound | .error .notDirectory | .error .nameTooLong => .ok {}
  | .error (.unreachable _) => .ok {}
  | .error e => .error (.unreadable path e.message)

/-- Loads the configuration at a path. -/
def load (storage : Storage) (path : String) : Except ConfigError Config :=
  ofFile path (storage.read path)

end Config

/-- Why a document cannot be loaded. -/
inductive LoadError where
  | reading (path : String) (error : FileError)
  | parsing (path : String) (error : DecodeError)

/-- The text of a failed reading of a document. -/
def DecodeError.message : DecodeError → String
  | malformed => "malformed document"
  | misfit reason => reason.message .document

namespace LoadError

/-- The text of the error. -/
def message : LoadError → String
  | reading path _ => "reading " ++ path
  | parsing path _ => "parsing " ++ path

/-- The text of the error followed by that of its cause. -/
def chain : LoadError → List String
  | reading path e => [message (reading path e), e.message]
  | parsing path e => [message (parsing path e), e.message]

end LoadError

/-- Reads a document out of a text that was read from a path. -/
def documentOf {α : Type} (reader : Json.Reader α) (path : String) :
    Except FileError String → Except LoadError α
  | .error e => .error (.reading path e)
  | .ok text =>
    match Json.decode reader text with
    | .ok a => .ok a
    | .error e => .error (.parsing path e)

/-- Loads the document at a path. -/
def loadDocument {α : Type} (reader : Json.Reader α) (storage : Storage) (path : String) :
    Except LoadError α :=
  documentOf reader path (storage.read path)

end ModifierFacts
