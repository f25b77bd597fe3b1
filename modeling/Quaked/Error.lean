import Quaked.Entity.Attribute
import Quaked.Text.Cursor

/-!
# Errors of reading

Reading a text fails at a position for a cause. A cause keeps what was found there; `Error.message`
is the one place that puts it into words.
-/

namespace Quaked

open Text

/-- What a definition says that cannot be, though its tokens stand in order. -/
inductive Complaint where
  /-- A numeral that denotes no number. -/
  | number (text : String)
  /-- A choice key beyond the range of keys. -/
  | choiceKey (text : String)
  /-- A whole number beyond the range of skins and frames. -/
  | integer (text : String)
  /-- A model attribute of another name than those that exist. -/
  | modelKey (text : String)
  /-- A model taken from attributes, none of which is its path. -/
  | missingPath
  /-- More spawnflags than there are bits. -/
  | flagCount
deriving DecidableEq, Repr

/-- Why reading fails. -/
inductive Cause where
  /-- A character that starts no token. -/
  | unexpectedCharacter (character : Char)
  /-- A quoted string without an end. -/
  | unterminatedString
  /-- A token in a place for others, which are named by their kinds. -/
  | unexpectedToken (expected : List String) (found : String)
  /-- A complaint about a token that is in its place. -/
  | invalid (complaint : Complaint)
deriving DecidableEq, Repr

/-- A failure of reading: a cause, and the position it is found at. -/
structure Error where
  cause : Cause
  position : Position
deriving DecidableEq, Repr

/-- Alternatives in words. -/
def alternatives (names : List String) : String := String.intercalate " or " names

namespace Complaint

/-- The complaint in words. -/
def message : Complaint → String
  | number text => "invalid number '" ++ text ++ "'"
  | choiceKey text => "invalid choice key '" ++ text ++ "'"
  | integer text => "invalid integer '" ++ text ++ "'"
  | modelKey text => "unknown model key '" ++ text ++ "'"
  | missingPath => "missing pathKey"
  | flagCount => "too many spawnflags, at most " ++ toString Attribute.flagLimit ++ " are supported"

end Complaint

namespace Cause

/-- Whether the cause is found while tokens are made, before any grammar sees them. -/
def isLexical : Cause → Bool
  | unexpectedCharacter _ | unterminatedString => true
  | unexpectedToken _ _ | invalid _ => false

/-- The cause in words. -/
def message : Cause → String
  | unexpectedCharacter character => "unexpected character '" ++ toString character ++ "'"
  | unterminatedString => "unterminated quoted string"
  | unexpectedToken expected found => "expected " ++ alternatives expected ++ ", found " ++ found
  | invalid complaint => complaint.message

end Cause

/-- The error in words: who found it, where, and what it is. -/
def Error.message (error : Error) : String :=
  (if error.cause.isLexical then "Lexer" else "Parse") ++ " error at line " ++
    toString error.position.line ++ ", column " ++ toString error.position.column ++ ": " ++
    error.cause.message

end Quaked
