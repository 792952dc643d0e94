import Stencil.Console.Layout
import Stencil.Metadata
import Stencil.Template.Parse
import Stencil.Text.Point
import Stencil.Yaml.Value

/-!
# Errors

What can go wrong in a command. The known errors each have a message and an exit status. Everything
else is unexpected: the file system refuses something, or bytes are no text. Both are reported in
one line.
-/

namespace Stencil

/-- What can be wrong with a field of the settings. -/
inductive FieldFault.Kind where
  /-- A text that is no whole number. -/
  | notNumeral
  /-- A number with too many digits. -/
  | tooLong
  /-- A number with a fraction. -/
  | fraction
  /-- An infinite number, or none at all. -/
  | notFinite
  /-- Neither a number nor a text. -/
  | notNumber
  | notText
  /-- Bytes that are no text. -/
  | undecodable
  | notMapping
  /-- A filter's name is no name. -/
  | badName (reason : String)
  deriving DecidableEq, Repr, Inhabited

/-- The sentence that tells what is wrong with a field. -/
def FieldFault.Kind.message : FieldFault.Kind → String
  | .notNumeral => "the text is no whole number"
  | .tooLong => "the number is too long"
  | .fraction => "the number has a fraction"
  | .notFinite => "the number is not finite"
  | .notNumber => "expected a number"
  | .notText => "expected a text"
  | .undecodable => "the bytes are no text"
  | .notMapping => "expected a mapping"
  | .badName reason => "Value error, filter name: " ++ reason

/-- A field of the settings that was refused. -/
structure FieldFault where
  /-- The path to the offending value: a field, a key in it, a mark. -/
  place : List String
  kind : FieldFault.Kind
  deriving DecidableEq, Repr, Inhabited

/-- Why settings cannot be read. -/
inductive SettingsFault where
  | malformed
  | notMapping
  | badFields (faults : List FieldFault)
  | other (detail : String)
  deriving DecidableEq, Repr, Inhabited

/-- The text that tells what is wrong with settings. -/
def SettingsFault.detail : SettingsFault → String
  | .malformed => "not a YAML document"
  | .notMapping => "expected a mapping at the top level"
  | .badFields faults =>
    Text.joinWith "; " (faults.map fun f => Text.joinWith "." f.place ++ ": " ++ f.kind.message)
  | .other detail => detail

/-- The errors that the program knows. -/
inductive Error where
  | parse (e : ParseError)
  | templateNotFound (name : String)
  | templateUnreadable (name stderr : String)
  | editAborted
  | invalidMetadata (fault : Metadata.Fault)
  | invalidTemplateName (name : String)
  | invalidSettings (path : String) (fault : SettingsFault)
  | other (message : String) (status : Int)
  deriving DecidableEq, Repr, Inhabited

/-- The sentence that reports the error. -/
def ParseError.message : ParseError → String
  | .nested => "nested variables are not allowed"
  | .unfinished => "variable was unfinished"
  | .invalidName _ reason => reason
  | .emptyChain body => "variable should have at least one ident: " ++ Text.quoted body
  | .clash name takenBy =>
    "filtered variable " ++ name ++ " clashes with " ++ takenBy ++ ", rename one of them"
  | .other message _ => message

/-- The status with which the program ends. -/
def ParseError.status : ParseError → Int
  | .other _ status => status
  | _ => 1

/-- The sentence that reports an error. -/
def Error.message : Error → String
  | .parse e => e.message
  | .templateNotFound name => "Template not found: " ++ name
  | .templateUnreadable name stderr =>
    let detail := Text.trim stderr
    "Failed to read template " ++ name ++ if detail.isEmpty then "" else ": " ++ detail
  | .editAborted => "Editing aborted, nothing was saved"
  | .invalidMetadata fault => "Invalid template vars: " ++ fault.detail
  | .invalidTemplateName name => "Invalid template name: " ++ Text.quoted name
  | .invalidSettings path fault => "Invalid config " ++ path ++ ": " ++ fault.detail
  | .other message _ => message

/-- The status with which a command ends that meets the error. -/
def Error.status : Error → Int
  | .parse e => e.status
  | .other _ status => status
  | _ => 1

/-- Errors that no command is prepared for. -/
inductive Unexpected where
  | fileExists (path : String)
  | isDirectory (path : String)
  | notDirectory (path : String)
  | notFound (path : String)
  | nameTooLong (path : String)
  | notEmpty (path : String)
  /-- A path holds a zero character. -/
  | zeroInPath
  | undecodable (e : Text.DecodeError)
  | unencodable (e : Text.EncodeError)
  /-- A key at the top of the settings is no text. -/
  | keyNotText
  /-- A part of the settings is out of range or has the wrong form. -/
  | badScalar (fault : Yaml.Fault)
  | other (text : String)
  deriving DecidableEq, Repr

/-- The message of a system error with its number. -/
def systemMessage (number : Nat) (text path : String) : String :=
  s!"[Errno {number}] " ++ text ++ ": " ++ Text.quoted path

/-- The text of an unexpected error. -/
def Unexpected.text : Unexpected → String
  | .fileExists path => systemMessage 17 "File exists" path
  | .isDirectory path => systemMessage 21 "Is a directory" path
  | .notDirectory path => systemMessage 20 "Not a directory" path
  | .notFound path => systemMessage 2 "No such file or directory" path
  | .nameTooLong path => systemMessage 36 "File name too long" path
  | .notEmpty path => systemMessage 39 "Directory not empty" path
  | .zeroInPath => "embedded null byte"
  | .undecodable e => e.message
  | .unencodable e => e.message
  | .keyNotText => "keywords must be strings"
  | .badScalar fault => fault.message
  | .other text => text

/-- Errors that a command lets through without a report. -/
inductive Escaped where
  | known (e : Error)
  /-- The style of a tag in a message is faulty. -/
  | badStyle
  deriving DecidableEq, Repr

/-- Why a command stops early. -/
inductive Failure where
  | known (e : Error)
  | unexpected (e : Unexpected)
  /-- The input ended at a question. -/
  | abort
  /-- The command asks to end with a status. -/
  | exit (status : Int)
  | unreported (e : Escaped)
  deriving DecidableEq, Repr

/-- The line that reports an error. -/
def Error.report (e : Error) : String :=
  Console.printedUnwrapped ("[red]Error:[/red] " ++ Console.escape e.message)

/-- The line that reports an unexpected error. -/
def Unexpected.report (e : Unexpected) : String :=
  Console.printedUnwrapped ("[red]Unexpected error:[/red] " ++ Console.escape e.text)

/-- How a failure ends a command. -/
inductive Ending where
  | exit (status : Int)
  | abort
  deriving DecidableEq, Repr

/-- What is reported of a failure, and how it ends the command. -/
def Failure.handle : Failure → String × Ending
  | .known e => (e.report, .exit e.status)
  | .unexpected e => (e.report, .exit 1)
  | .abort => ("", .abort)
  | .exit status => ("", .exit status)
  | .unreported _ => ("", .exit 1)

end Stencil
