/-!
# Kinds of symbols and of types

`SymbolKind` says what sort of program element a symbol stands for, `TypeKind` what sort of type a
named type is. Both have a tag, the word that is read and written, and a label, the word that error
messages quote. A kind of symbol without a constructor of its own is `SymbolKind.other`; a kind of
type has no such escape.
-/

namespace ModifierFacts

/-! ## 1. Symbols -/

/-- The sort of program element that a symbol stands for. -/
inductive SymbolKind where
  -- types
  | namedType
  | errorType
  | arrayType
  | pointerType
  | functionPointerType
  | dynamicType
  | typeParameter
  -- members
  | method
  | field
  | property
  | event
  | parameter
  | localVariable
  | jumpLabel
  | rangeVariable
  | discard
  | preprocessing
  -- containers
  | nameSpace
  | aliasName
  | assembly
  | netModule
  /-- Any kind that is not listed. It is classified by accessibility and flags alone. -/
  | other
  deriving DecidableEq, Repr

namespace SymbolKind

/-- Every kind, in declaration order. -/
def all : List SymbolKind :=
  [.namedType, .errorType, .arrayType, .pointerType, .functionPointerType, .dynamicType,
    .typeParameter, .method, .field, .property, .event, .parameter, .localVariable, .jumpLabel,
    .rangeVariable, .discard, .preprocessing, .nameSpace, .aliasName, .assembly,
    .netModule, .other]

/-- The written form of a kind. -/
def tag : SymbolKind → String
  | namedType => "named_type"
  | errorType => "error_type"
  | arrayType => "array_type"
  | pointerType => "pointer_type"
  | functionPointerType => "function_pointer_type"
  | dynamicType => "dynamic_type"
  | typeParameter => "type_parameter"
  | method => "method"
  | field => "field"
  | property => "property"
  | event => "event"
  | parameter => "parameter"
  | localVariable => "local"
  | jumpLabel => "label"
  | rangeVariable => "range_variable"
  | discard => "discard"
  | preprocessing => "preprocessing"
  | nameSpace => "namespace"
  | aliasName => "alias"
  | assembly => "assembly"
  | netModule => "net_module"
  | other => "other"

/-- The name of a kind in error messages. -/
def label : SymbolKind → String
  | namedType => "NamedType"
  | errorType => "ErrorType"
  | arrayType => "ArrayType"
  | pointerType => "PointerType"
  | functionPointerType => "FunctionPointerType"
  | dynamicType => "DynamicType"
  | typeParameter => "TypeParameter"
  | method => "Method"
  | field => "Field"
  | property => "Property"
  | event => "Event"
  | parameter => "Parameter"
  | localVariable => "Local"
  | jumpLabel => "Label"
  | rangeVariable => "RangeVariable"
  | discard => "Discard"
  | preprocessing => "Preprocessing"
  | nameSpace => "Namespace"
  | aliasName => "Alias"
  | assembly => "Assembly"
  | netModule => "NetModule"
  | other => "Other"

end SymbolKind

/-! ## 2. Named types -/

/-- The sort of a named type. -/
inductive TypeKind where
  | classType
  | structType
  | interfaceType
  | enumType
  | delegateType
  | errorType
  | unknownType
  deriving DecidableEq, Repr

namespace TypeKind

/-- Every kind of type, in declaration order. -/
def all : List TypeKind :=
  [.classType, .structType, .interfaceType, .enumType, .delegateType, .errorType,
    .unknownType]

/-- The written form of a kind of type. -/
def tag : TypeKind → String
  | classType => "class"
  | structType => "struct"
  | interfaceType => "interface"
  | enumType => "enum"
  | delegateType => "delegate"
  | errorType => "error"
  | unknownType => "unknown"

/-- The name of a kind of type in error messages. -/
def label : TypeKind → String
  | classType => "Class"
  | structType => "Struct"
  | interfaceType => "Interface"
  | enumType => "Enum"
  | delegateType => "Delegate"
  | errorType => "Error"
  | unknownType => "Unknown"

end TypeKind

end ModifierFacts
