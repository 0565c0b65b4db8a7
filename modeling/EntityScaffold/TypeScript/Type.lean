/-!
# TypeScript types

The built-in types of a document stand for types of the generated code. Every other type, whether
an enumeration or a name that nothing declares, is taken over as it is.
-/

namespace EntityScaffold.TypeScript

/-- The type of dates in generated code. -/
def dateType : String := "dayjs.Dayjs"

/-- The built-in types of a document and what they stand for. -/
def builtinTypes : List (String × String) :=
  [("String", "string"), ("TextBlob", "string"), ("UUID", "string"),
    ("Integer", "number"), ("Long", "number"), ("BigDecimal", "number"), ("Float", "number"),
    ("Double", "number"), ("Boolean", "boolean"),
    ("LocalDate", dateType), ("Instant", dateType), ("ZonedDateTime", dateType),
    ("Blob", "string"), ("AnyBlob", "string"), ("ImageBlob", "string")]

/-- The type of the generated code that a declared type stands for. -/
def typeOf (declared : String) : String := (builtinTypes.lookup declared).getD declared

/-- Is a declared type a built-in type of dates? -/
def isDate (declared : String) : Bool := builtinTypes.lookup declared == some dateType

/-- The value that a property of a type has before one is given. -/
def defaultOf (type : String) : String := if type = "boolean" then "false" else "null"

end EntityScaffold.TypeScript
