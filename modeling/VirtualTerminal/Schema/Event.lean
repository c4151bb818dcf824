import VirtualTerminal.Schema.Draft07

/-!
# Schema — events

The schema of the lines that a stream of events consists of, in the draft 2020-12 and, for the
validators that want it, in draft 07.
-/

namespace VirtualTerminal.Schema

/-! ### Parts of a schema -/

/-- A schema that allows one type. -/
def ofType (type : String) : Json.Members := [("type", .string type)]

/-- A schema that allows a type and null. -/
def orNull (type : String) : Json.Members := [("type", .array [.string type, .string "null"])]

/-- A schema that allows integers in a format, from zero on. -/
def natural (format : String) : Json.Members :=
  ofType "integer" ++ [("format", .string format), ("minimum", .int 0)]

/-- A schema that allows arrays. -/
def arrayOf (items : Json.Members) : Json.Members :=
  ofType "array" ++ [("items", .object items)]

/-- A schema that is defined at the root. -/
def definition (name : String) : Json.Members := [("$ref", .string ("#/$defs/" ++ name))]

/-- A schema with a description. -/
def described (description : String) (schema : Json.Members) : Json.Members :=
  ("description", .string description) :: schema

/-- A member of an object. -/
structure Property where
  name : String
  schema : Json.Members
  required : Bool := true

/-- A member with a description. -/
def property (name description : String) (schema : Json.Members) : Property :=
  ⟨name, described description schema, true⟩

/-- A member that may be missing. -/
def optionalProperty (name description : String) (schema : Json.Members) : Property :=
  ⟨name, described description schema, false⟩

/-- A schema that allows objects with certain members. -/
def objectOf (properties : List Property) : Json.Members :=
  ofType "object" ++
    [("properties", .object (properties.map fun p => (p.name, .object p.schema))),
     ("required", .array ((properties.filter Property.required).map fun p => .string p.name))]

/-! ### Events -/

/-- The size of a screen. -/
def dimensions : Json.Members :=
  described
    "Dimensions of a screen.\n\nSerialized as `\x7b\"cols\": .., \"rows\": ..\x7d`, the `terminal_size` shape of\noutput events."
    (objectOf
      [property "cols" "Number of columns" (natural "uint16" ++ [("maximum", .int 65535)]),
       property "rows" "Number of rows" (natural "uint16" ++ [("maximum", .int 65535)])])

/-- A run of cells. -/
def token : Json.Members :=
  described "A maximal run of cells in one row sharing identical style, link and mark."
    (objectOf
      [property "text" "Text of the run" (ofType "string"),
       property "bold" "Bold text" (ofType "boolean"),
       property "italic" "Italic text" (ofType "boolean"),
       property "underline" "Underlined text" (ofType "boolean"),
       property "dim" "Dimmed text" (ofType "boolean"),
       property "inverse" "Reverse video" (ofType "boolean"),
       property "strikethrough" "Strikethrough text" (ofType "boolean"),
       property "fg" "Foreground as `#rrggbb`, empty for the default color" (ofType "string"),
       property "bg" "Background as `#rrggbb`, empty for the default color" (ofType "string"),
       optionalProperty "link" "Hyperlink target (OSC 8)" (orNull "string"),
       optionalProperty "code" "Block marker (OSC 133)" (orNull "string")])

/-- A rendering of the screen. -/
def rendering : Json.Members :=
  described "One rendered update of a session's screen."
    (objectOf
      [property "tokens" "Tokens, one inner vector per screen row"
        (arrayOf (arrayOf (definition "Token"))),
       property "content" "Plain-text rendering of the screen" (ofType "string"),
       property "truncated" "Whether the session's output buffer ever dropped content"
        (ofType "boolean"),
       property "terminal_size" "Screen size at render time" (definition "Dimensions"),
       property "backend_name" "Backend supplying the byte stream" (ofType "string"),
       property "timestamp" "Seconds since the Unix epoch"
        (ofType "number" ++ [("format", .string "double")])])

/-- One alternative: an object whose member `type` names the kind of the event. -/
def alternative (kind description : String) (properties : List Property) : Json.Members :=
  described description
    (objectOf (⟨"type", ofType "string" ++ [("const", .string kind)], true⟩ :: properties))

/-- The alternatives of an event. -/
def alternatives : List Json.Members :=
  [alternative "terminal_output" "Rendered screen update" [] ++ definition "TerminalOutput",
   alternative "binary_content" "A chunk was classified as binary and not rendered"
    [property "message" "Human-readable explanation" (ofType "string"),
     property "data_size" "Size of the rejected chunk in bytes" (natural "uint")],
   alternative "title_changed" "Window title set by OSC 0/2"
    [property "title" "New title" (ofType "string")],
   alternative "exited" "Process exited"
    [optionalProperty "code" "Exit code, if the backend reports one"
      (orNull "integer" ++ [("format", .string "int32")])],
   alternative "failed" "Backend stream failed"
    [property "reason" "Failure description" (ofType "string")]]

/-- The schema of an event in the draft 2020-12. -/
def event : Json :=
  .object
    (described "Event delivered to subscribers of a session."
      [("$schema", .string "https://json-schema.org/draft/2020-12/schema"),
       ("title", .string "SessionEvent"),
       ("oneOf", .array (alternatives.map .object)),
       ("$defs", .object
        [("Dimensions", .object dimensions), ("TerminalOutput", .object rendering),
         ("Token", .object token)])])

/-- The schema of an event in draft 07. -/
def eventDraft07 : Json := draft07 event

end VirtualTerminal.Schema
