import InvisibleString.Lib.Text

/- # `Compiler.Strings` — the literals the emitters write -/

namespace InvisibleString.Compiler

open Json

/-- A double-quoted TS string literal. -/
def tsString (value : JsString) : JsString := quote value

/-- An inline TS array of string literals. -/
def tsStringArray (values : List JsString) : JsString :=
  ascii "[" ++ join (ascii ", ") (values.map tsString) ++ ascii "]"

end InvisibleString.Compiler
