import ExpressLinks.Json.Decode
import ExpressLinks.Marker

/-!
# References in documents

A reference always shows its render text, null when it has none.
-/

namespace ExpressLinks.Reference

/-- A reference in a document. -/
def toJson (reference : Reference) : Json :=
  .ofMembers
    [("raw_path", .text reference.rawPath),
     ("render_text", Json.ofOption .text reference.renderText),
     ("source_file", .text reference.sourceFile),
     ("line_number", .nat reference.lineNumber)]

/-- Reads a reference. -/
def ofJson? (json : Json) : Option Reference := do
  let fields ← Json.fields? ["raw_path", "render_text", "source_file", "line_number"] json
  let rawPath ← fields.required "raw_path" Json.asText?
  let renderText ← fields.optionalInPlace "render_text" Json.asText?
  let sourceFile ← fields.required "source_file" Json.asText?
  let lineNumber ← fields.required "line_number" Json.asCounter?
  some { rawPath, renderText, sourceFile, lineNumber }

end ExpressLinks.Reference
