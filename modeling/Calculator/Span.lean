namespace Calculator

-- The name given to text that does not come from a file.
def unnamedInput : String := "<input>"

-- A stretch of source text. Lines and columns count from 1 and offsets from 0, all of them in
-- characters.
structure Span where
  line : Int
  column : Int
  offset : Int
  length : Int := 0
  file : String := unnamedInput
  deriving DecidableEq, Inhabited

namespace Span

def start (span : Span) : Int := span.offset

-- The offset of the first character after the span.
def stop (span : Span) : Int := span.offset + span.length

-- Where the span begins, as messages show it.
def place (span : Span) : String :=
  span.file ++ ":" ++ toString span.line ++ ":" ++ toString span.column

end Span

end Calculator
