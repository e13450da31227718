import DynamicSql.Value.Kind

/-!
# Errors

Each way in which a statement, a template, a path or a parameter is refused is
a cause of its own. The wording of all of them is `Error.message`.
-/

namespace DynamicSql

/-- What is wrong with the spelling of a property path. -/
inductive PathFault where
  | unclosedIndex
  | invalidIndex
  | emptySegment
  | missingSeparator
  | malformedSegment
  deriving DecidableEq, Repr

/-- What is wrong with the spelling of a template. -/
inductive TemplateFault where
  | path (fault : PathFault)
  | unterminatedParameter
  | mixedParameterStyles
  | missingPropertyName
  | malformedAttribute
  | unknownParameterAttribute
  | invalidMode
  | invalidScale
  | invalidPolicy
  | unknownTag
  | unknownTagAttribute (tag : String)
  | missingOperand
  | missingProperty
  deriving DecidableEq, Repr

/-- Why a name cannot be bound. -/
inductive BindingFault where
  | unknownJavaType
  | unregisteredHandler
  | noSuchProperty
  | noConverter (kind : ValueKind) (jdbcType : Option String)
  | notACollection (found : String)
  | markerInText
  deriving DecidableEq, Repr

/-- Why an operation gives no answer. -/
inductive Error where
  /-- A quote opens at the byte `offset` and is never closed. -/
  | unterminatedLiteral (offset : Nat) (tail : String)
  /-- A parenthesis at the byte `offset` has no partner. -/
  | unbalanced (offset : Nat) (near : String)
  /-- A template or a path is not written as it must be. -/
  | template (fault : TemplateFault) (snippet : String)
  /-- A property, type or handler name does not resolve. -/
  | binding (path owner : String) (fault : BindingFault)
  /-- A setting has a value that is no number. -/
  | setting (name value : String)
  deriving DecidableEq, Repr

/-- The wording of a fault in a path. -/
def PathFault.message : PathFault → String
  | unclosedIndex => "unclosed index"
  | invalidIndex => "index must be a non-negative integer"
  | emptySegment => "empty segment"
  | missingSeparator => "expected '.' or '['"
  | malformedSegment => "malformed segment"

/-- The wording of a fault in a template. -/
def TemplateFault.message : TemplateFault → String
  | path fault => "invalid property path: " ++ fault.message
  | unterminatedParameter => "unterminated inline parameter"
  | mixedParameterStyles => "mismatched parameter syntax, mixes ':' and ','"
  | missingPropertyName => "missing property name"
  | malformedAttribute => "mismatched attribute pairs, expected key=value"
  | unknownParameterAttribute => "unrecognized parameter attribute"
  | invalidMode => "mode must be IN, OUT or INOUT"
  | invalidScale => "numericScale must be a non-negative integer"
  | invalidPolicy => "removeFirstPrepend must be true, false or iterate"
  | unknownTag => "unknown tag"
  | unknownTagAttribute tag => "unknown attribute on " ++ tag
  | missingOperand => "compare tag needs compareProperty or compareValue"
  | missingProperty => "tag needs a property"

/-- The wording of a reason why a name cannot be bound. -/
def BindingFault.message : BindingFault → String
  | unknownJavaType => "unknown java type alias"
  | unregisteredHandler => "no handler registered"
  | noSuchProperty => "no such property"
  | noConverter kind jdbcType =>
    "no converter for " ++ kind.name ++ " with jdbc type " ++ jdbcType.getD "<none>"
  | notACollection found => "expected a collection to iterate, found " ++ found
  | markerInText => "substituted text must not contain a parameter marker"

/-- The wording of an error. -/
def Error.message : Error → String
  | unterminatedLiteral offset tail =>
    "Unterminated string literal at offset " ++ toString offset ++ " near '" ++ tail ++ "'"
  | unbalanced offset near =>
    "Unbalanced parenthesis at offset " ++ toString offset ++ " near '" ++ near ++ "'"
  | template fault snippet =>
    "Template syntax error: " ++ fault.message ++ " near '" ++ snippet ++ "'"
  | binding path owner fault =>
    "Cannot resolve '" ++ path ++ "' on " ++ owner ++ ": " ++ fault.message
  | setting name value =>
    "Configuration error: " ++ name ++ " is no natural number: '" ++ value ++ "'"

end DynamicSql
