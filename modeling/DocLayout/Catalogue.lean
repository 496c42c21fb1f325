/-!
# The catalogue of public names
-/

namespace DocLayout

/-- The names under which the library is known to its users, in the order of their characters. -/
def publicNames : List String :=
  ["DEFAULT_WIDTH", "Doc", "LINE", "NIL", "SOFTLINE", "align", "angles", "append", "braces",
   "brackets", "cast_doc", "cat", "char", "column", "concat", "empty", "flatten", "group", "hang",
   "hsep", "indent", "join", "layout", "line", "nest", "nesting", "parens", "pformat", "pprint",
   "pretty", "render_to_str", "render_to_stream", "sep", "softline", "surround", "text", "vsep",
   "width"]

/-- The version of the names and of what they mean. -/
def version : String := "0.1.0"

end DocLayout
