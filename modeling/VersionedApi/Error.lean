import VersionedApi.Version.Number

/-!
# Errors

An `Error` is a fault of the documentation at its place, or something that is not about one
docblock: an unreadable file, a configuration, a serialized value of the wrong form, a change that
a changelog cannot hold. `Error.code` and `Error.message` are what a user sees of it.
-/

namespace VersionedApi

/-- What can be wrong with a configuration. -/
inductive ConfigFault where
  /-- The text is not TOML, or a key is missing or has a value of the wrong form. -/
  | malformed
  | noVersions
  | unordered (earlier later : Version.Number)
  | unsupportedDefault (version : Version.Number)
deriving DecidableEq, Repr

def ConfigFault.sentence : ConfigFault → String
  | malformed => "TOML parse error"
  | noVersions => "versions.supported must list at least one version"
  | unordered earlier later =>
    "versions.supported must be ascending, found " ++ earlier.text ++ " before " ++ later.text
  | unsupportedDefault version =>
    "versions.default " ++ version.text ++ " is not a supported version"

inductive ReadFault where
  | notFound
  | notDirectory
  | isDirectory
  | nameTooLong
  | zeroInName
  | notText
deriving DecidableEq, Repr

/-- The reason as it is shown, for most in the words of the operating system. -/
def ReadFault.sentence : ReadFault → String
  | notFound => "No such file or directory (os error 2)"
  | notDirectory => "Not a directory (os error 20)"
  | isDirectory => "Is a directory (os error 21)"
  | nameTooLong => "File name too long (os error 36)"
  | zeroInName => "file name contained an unexpected NUL byte"
  | notText => "stream did not contain valid UTF-8"

/-- Everything that can go wrong. -/
inductive Error where
  | documentation (fault : Fault) (context : Context)
  | unreadable (path : String) (reason : ReadFault)
  | configuration (fault : ConfigFault)
  | malformedValue
  | unsupportedChange (definition subject : String)
deriving DecidableEq, Repr

namespace Error

def code : Error → String
  | documentation fault _ => fault.code
  | unreadable .. => "E000"
  | configuration _ => "E901"
  | malformedValue => "E902"
  | unsupportedChange .. => "E401"

def message : Error → String
  | documentation fault context => fault.sentence ++ context.place
  | unreadable path reason => "Failed to read file " ++ path ++ ": " ++ reason.sentence
  | configuration fault => "Invalid configuration: " ++ fault.sentence
  | malformedValue => "JSON serialization error"
  | unsupportedChange definition subject =>
    s!"Cannot compile a `{definition}` changeset for `{subject}` changes"

def context? : Error → Option Context
  | documentation _ context => some context
  | _ => none

end Error

/-- Faults become errors at a place. -/
def located {α : Type} (context : Context) (result : Except Fault α) : Except Error α :=
  result.mapError (.documentation · context)

end VersionedApi
